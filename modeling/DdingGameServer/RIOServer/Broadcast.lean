import DdingGameServer.RIOServer.Account
/-!
# RIOServer — the broadcast set and the session map

`sessionMap` and `Broadcaster::sessionIdSet` are changed under two locks at different points of a
session's life: `MakeNewSession` enters the set long after the map, and only the release that
`IOCountDecrement` begins leaves the set, just before it erases the session from the map. Two
things make the set differ from the map for good: a session that leaves before it has entered, and
a session that `RecvCompleted` releases, which then has to wait for its count to fall to 0.
-/

namespace DdingGameServer

namespace RIOServer

variable {cfg : NetConfig} {s s' : State} {e : Event} {sid : SessionId} {op : Op} {rest : List Op}
  {ok : Bool} {replies : List NetBuffer} {sh : Shared} {se : RIOSession} {res : IoPostError}
  {o : Outcome} {t : Thread} {i : ℕ}

/-! ## What the set is for -/

/-- The thread is inside `MakeNewSession`, a completion handler or `ReleaseSession`. The
increment of `sessionCount` is `Accepter`'s own, and a sender works on a completion or a new
session never. -/
def Thread.inside (t : Thread) : Prop :=
  match t.role with
  | .accepter => t.code ≠ [] ∧ t.code ≠ [.incSessionCount]
  | .worker _ => t.code ≠ []
  | .sender => ∃ op rest, t.code = op :: rest ∧ op.releasing = true

theorem Thread.not_inside_of_idle (h : t.code = []) : ¬ t.inside := by
  unfold Thread.inside
  cases t.role <;> simp [h]

/-- **The broadcast set follows the session map**: it is the set of its keys whenever no thread is
inside one of the functions that change them. -/
def BroadcastFollows (s : State) : Prop :=
  (∀ t ∈ s.threads, ¬ t.inside) → s.shared.sessionIdSet = s.shared.sessionMap

/-! ## Entering and leaving -/

/-- Puts the session into `sessionIdSet`. -/
def Op.enters : Op → Bool
  | .onSessionEntered => true
  | _ => false

/-- Takes the session out of `sessionIdSet`, or may lead to it. -/
def Op.leaves : Op → Bool
  | .ioCountDecrement | .workerTail _ | .onSessionLeaved => true
  | _ => false

/-- An operation of `IOCountDecrement` at 0. -/
def Op.exits : Op → Bool
  | .onSessionLeaved | .closeSocket | .decWorkerCount | .decSessionCount | .eraseSession
  | .onSessionReleased => true
  | _ => false

/-- What `IOCountDecrement` executes at 0. -/
def leaveSession : List Op := .onSessionLeaved :: releaseSession

instance : Op.Apart Op.enters := ⟨rfl, fun _ => rfl, rfl, fun _ => rfl⟩
instance : Op.Apart Op.leaves := ⟨rfl, fun _ => rfl, rfl, fun _ => rfl⟩
instance : Op.Apart Op.exits := ⟨rfl, fun _ => rfl, rfl, fun _ => rfl⟩
instance : Op.Follows (fun _ => false) Op.enters := ⟨fun _ _ => rfl⟩

/-- How often workers and the accepter may still come to `OnSessionLeaved` of a session. -/
def Thread.leaving (sid : SessionId) (t : Thread) : ℕ :=
  if t.role = .sender then 0 else t.owes Op.leaves sid

def State.leaving (sid : SessionId) (s : State) : ℕ := tally (Thread.leaving sid) s.threads

/-- What the set asks of a thread's next operation. `OnSessionLeaved` does not come before
`OnSessionEntered`; and where a session that was erased from the map has not left the set, the last
`IOCountDecrement` of the workers and the accepter on it reaches 0. -/
def KeepsBroadcastOp (s : State) (t : Thread) (op : Op) : Prop :=
  (op = .onSessionLeaved → s.pending Op.enters t.session = 0) ∧
  (op = .ioCountDecrement → t.role ≠ .sender → t.session ∉ s.shared.sessionMap →
    (t.session ∈ s.shared.sessionIdSet ∨ 0 < s.pending Op.enters t.session) →
    (s.session t.session).ioCount = 1 ∨ 1 < s.leaving t.session)

instance : Decidable (KeepsBroadcastOp s t op) := inferInstanceAs (Decidable (_ ∧ _))

/-- **The step leaves the set as the map has it.** -/
def KeepsBroadcast (s : State) (e : Event) : Prop :=
  ∀ t op rest, s.executing e = some (t, op, rest) → KeepsBroadcastOp s t op

instance : Decidable (KeepsBroadcast s e) :=
  match h : s.executing e with
  | none => .isTrue fun _ _ _ hexec => nomatch h.symm.trans hexec
  | some (t, op, rest) =>
    decidable_of_iff (KeepsBroadcastOp s t op)
      ⟨fun hc _ _ _ hexec => by cases h.symm.trans hexec; exact hc, fun hk => hk t op rest h⟩

/-! ## One operation -/

theorem execOp_sessionIdSet (ho : o = execOp cfg op ok replies sid sh se res) :
    o.shared.sessionIdSet =
      if op = .onSessionEntered then insert sid sh.sessionIdSet
      else if op = .onSessionLeaved then sh.sessionIdSet.erase sid
      else sh.sessionIdSet := by
  subst ho
  unfold execOp
  repeat' split
  all_goals simp_all [Shared.freeContext, Shared.allocContext]

/-- `emplace` leads to `OnSessionEntered`, nothing else does. -/
theorem execOp_enters (ho : o = execOp cfg op ok replies sid sh se res) :
    o.code.countP Op.enters = if op = .emplaceSession ∧ sid ∉ sh.sessionMap then 1 else 0 := by
  subst ho
  unfold execOp
  repeat' split
  all_goals
    simp_all [Op.enters, sendPost, recvPost, releaseSession, enterNewSession, List.countP_append,
      List.countP_cons]

/-- **An operation leads to the exit of a session whole**, or not at all. -/
theorem execOp_exits (ho : o = execOp cfg op ok replies sid sh se res)
    (hmem : op = .emplaceSession → sid ∉ sh.sessionMap) :
    o.code.countP Op.exits = 0 ∨ (op = .ioCountDecrement ∧ o.code = leaveSession) ∨
      (op = .releaseOnError true ∧ o.code = releaseSession) := by
  subst ho
  unfold execOp
  repeat' split
  all_goals
    simp_all [Op.exits, sendPost, recvPost, releaseSession, enterNewSession, leaveSession,
      List.countP_append, List.countP_cons]

/-- A way to the exit is followed to its end. -/
theorem execOp_leaves (ho : o = execOp cfg op ok replies sid sh se res)
    (hres : res ≠ .invalidOperationType ∧ res ≠ .isDeletedSession)
    (hop : op ≠ .onSessionLeaved) (hcount : op = .ioCountDecrement → se.ioCount = 1) :
    [op].countP Op.leaves ≤ o.code.countP Op.leaves := by
  subst ho
  unfold execOp
  repeat' split
  all_goals simp_all [Op.leaves, List.countP_cons]

/-! ## The way to the exit -/

/-- What follows an operation of the exit. -/
def exitAfter : Op → List Op
  | .onSessionLeaved => releaseSession
  | .closeSocket => [.decWorkerCount, .decSessionCount, .eraseSession, .onSessionReleased]
  | .decWorkerCount => [.decSessionCount, .eraseSession, .onSessionReleased]
  | .decSessionCount => [.eraseSession, .onSessionReleased]
  | .eraseSession => [.onSessionReleased]
  | _ => []

/-- **A thread on its way through the exit of a session** has the rest of it at the front of its
code, and no exit behind. -/
def Exiting : List Op → Prop
  | [] => True
  | op :: rest => ∃ behind, rest = exitAfter op ++ behind ∧ behind.countP Op.exits = 0

theorem exiting_of_none {code : List Op} (h : code.countP Op.exits = 0) : Exiting code := by
  cases code with
  | nil => exact trivial
  | cons op rest =>
    rw [List.countP_cons] at h
    have hop : op.exits = false := by
      by_contra hop
      rw [if_pos (by simpa using hop)] at h
      omega
    refine ⟨rest, ?_, by omega⟩
    cases op <;> first | rfl | cases hop

/-- **Executing an operation keeps a thread's exits in order.** -/
theorem Exiting.exec (h : Exiting (op :: rest)) (ho : o = execOp cfg op ok replies sid sh se res)
    (hmem : op = .emplaceSession → sid ∉ sh.sessionMap) : Exiting (o.code ++ rest) := by
  obtain ⟨behind, rfl, hbehind⟩ := h
  rcases execOp_exits ho hmem with hnone | ⟨rfl, hleave⟩ | ⟨rfl, hrelease⟩
  · by_cases hop : op.exits = true
    · have hnil : o.code = [] := by
        subst ho
        cases op <;> first | rfl | cases hop
      rw [hnil]
      cases op with
      | onSessionLeaved => exact ⟨behind, rfl, hbehind⟩
      | closeSocket => exact ⟨behind, rfl, hbehind⟩
      | decWorkerCount => exact ⟨behind, rfl, hbehind⟩
      | decSessionCount => exact ⟨behind, rfl, hbehind⟩
      | eraseSession => exact ⟨behind, rfl, hbehind⟩
      | onSessionReleased => exact exiting_of_none hbehind
      | _ => cases hop
    · have hnil : exitAfter op = [] := by
        cases op <;> first | rfl | exact absurd rfl hop
      rw [hnil]
      exact exiting_of_none (by rw [List.countP_append, hnone, List.nil_append, hbehind])
  · rw [hleave]
    exact ⟨behind, rfl, hbehind⟩
  · rw [hrelease]
    exact ⟨behind, rfl, hbehind⟩

/-- Where the erase is ahead, the thread is in the exit. -/
theorem Exiting.exits_of_mem (h : Exiting (op :: rest)) (hmem : .eraseSession ∈ op :: rest) :
    op = .onSessionLeaved ∨ op.releasing = true := by
  obtain ⟨behind, rfl, hbehind⟩ := h
  have hnot : Op.eraseSession ∉ behind := fun hin => List.countP_eq_zero.mp hbehind _ hin rfl
  cases op with
  | onSessionLeaved => exact .inl rfl
  | closeSocket => exact .inr rfl
  | decWorkerCount => exact .inr rfl
  | decSessionCount => exact .inr rfl
  | eraseSession => exact .inr rfl
  | onSessionReleased => exact .inr rfl
  | _ => exact absurd hmem (by simp [exitAfter, hnot])

/-- `ReleaseSession` does not come to `OnSessionLeaved` before its erase. -/
theorem Exiting.head_ne (h : Exiting (op :: rest)) (hmem : .eraseSession ∈ rest) :
    rest.head? ≠ some .onSessionLeaved := by
  obtain ⟨behind, rfl, hbehind⟩ := h
  have hnot : Op.eraseSession ∉ behind := fun hin => List.countP_eq_zero.mp hbehind _ hin rfl
  cases op with
  | onSessionLeaved => exact nofun
  | closeSocket => exact nofun
  | decWorkerCount => exact nofun
  | decSessionCount => exact nofun
  | _ => exact absurd hmem (by simp [exitAfter, hnot])

/-! ## One step and one session -/

/-- **What one step does to a session's place in the map and in the set**: nothing, or what an
operation on it does. -/
inductive Tracks (cfg : NetConfig) (sid : SessionId) (s : State) : Event → State → Prop
  | kept {e : Event} {s' : State} :
      (∀ t op rest, s.executing e = some (t, op, rest) → t.session ≠ sid) →
      (sid ∈ s'.shared.sessionMap ↔ sid ∈ s.shared.sessionMap) →
      (sid ∈ s'.shared.sessionIdSet ↔ sid ∈ s.shared.sessionIdSet) →
      s'.pending Op.enters sid = s.pending Op.enters sid → s'.leaving sid = s.leaving sid →
      Tracks cfg sid s e s'
  | executed {s' : State} {i : ℕ} {t : Thread} {op : Op} {rest : List Op} {o : Outcome} (ok : Bool)
      (replies : List NetBuffer) :
      s.threads[i]? = some t → t.session = sid → t.code = op :: rest →
      o = execOp cfg op ok replies sid s.shared (s.session sid) t.result →
      s'.shared = o.shared →
      s'.threads = s.threads.set i { t with result := o.result, code := o.code ++ rest } →
      s'.pending Op.enters sid + [op].countP Op.enters =
        s.pending Op.enters sid + o.code.countP Op.enters →
      s'.leaving sid + (if t.role = .sender then 0 else [op].countP Op.leaves) =
        s.leaving sid + (if t.role = .sender then 0 else o.code.countP Op.leaves) →
      Tracks cfg sid s (.exec i ok replies) s'

/-- One thread replaced by one that owes as much. -/
theorem leaving_set (sid : SessionId) {u : Thread} (hi : s.threads[i]? = some t)
    (h : s'.threads = s.threads.set i u) :
    s'.leaving sid + t.leaving sid = s.leaving sid + u.leaving sid := by
  rw [State.leaving, State.leaving, h]
  exact tally_set hi

theorem Thread.leaving_eq_zero (h : t.code.countP Op.leaves = 0) : t.leaving sid = 0 := by
  unfold Thread.leaving Thread.owes
  split
  · rfl
  · split
    · exact h
    · rfl

theorem leaving_of_not_exec (hs : Step cfg s e s') (he : ∀ i ok replies, e ≠ .exec i ok replies) :
    s'.leaving sid = s.leaving sid := by
  have hidle : ∀ {i : ℕ} {t u : Thread}, s.threads[i]? = some t → t.code = [] →
      u.code.countP Op.leaves = 0 → s'.threads = s.threads.set i u →
      s'.leaving sid = s.leaving sid := by
    intro i t u hi hcode hu hthreads
    have hset := leaving_set sid hi hthreads
    have ht : t.leaving sid = 0 := Thread.leaving_eq_zero (by rw [hcode]; rfl)
    rwa [ht, Thread.leaving_eq_zero hu] at hset
  cases hs with
  | acceptFailed i threadId => rfl
  | accepted hi hcode hid => exact hidle hi hcode rfl rfl
  | @gotSession i t sid' hi hcode hmem =>
    exact hidle (u := { t with session := sid' }) hi hcode (by rw [hcode]; rfl) rfl
  | called hi hcode hne hcall => exact hidle hi hcode hcall.countP_eq_zero rfl
  | completed data hc => rfl
  | dequeued hi hcode hrole hc => exact hidle hi hcode rfl rfl
  | executed ok replies _ _ _ => exact absurd rfl (he _ ok replies)

/-- What is entering a session stays where nothing is executed on it. -/
theorem pending_enters_of_not_executed (hs : Step cfg s e s')
    (he : ∀ t op rest, s.executing e = some (t, op, rest) → t.session ≠ sid) :
    s'.pending Op.enters sid = s.pending Op.enters sid := by
  cases hs.alters sid with
  | kept hk => exact hk.pending _
  | entered threadId hid hnext _ hse hsh hp => exact hp _
  | executed ok replies hi hsid hcode ho hse hsh hp =>
    exact absurd hsid (he _ _ _ (executing_eq hi hcode))

/-- **Every step does one of the two.** -/
theorem Step.tracks (hs : Step cfg s e s') (sid : SessionId) : Tracks cfg sid s e s' := by
  have hkept : (∀ i ok replies, e ≠ .exec i ok replies) → Tracks cfg sid s e s' := by
    intro he
    have hsh := hs.shared_of_not_exec he
    have hnone : ∀ t op rest, s.executing e = some (t, op, rest) → t.session ≠ sid := by
      intro t op rest hexec
      obtain ⟨i, ok, replies, rfl, -, -⟩ := executing_eq_some hexec
      exact absurd rfl (he i ok replies)
    exact .kept hnone (by rw [hsh]) (by rw [hsh]) (pending_enters_of_not_executed hs hnone)
      (leaving_of_not_exec hs he)
  cases e with
  | exec i ok replies =>
    obtain ⟨t, op, rest, hi, hcode⟩ := hs.exec_next
    have hthreads := hs.exec_threads hi hcode
    have hsh := hs.exec_shared hi hcode
    have hset := leaving_set sid hi hthreads
    by_cases hsid : t.session = sid
    · subst hsid
      refine .executed ok replies hi rfl hcode rfl hsh hthreads (hs.exec_pending hi hcode _) ?_
      by_cases hrole : t.role = .sender
      · simpa only [Thread.leaving, hrole, if_true] using hset
      · simp only [Thread.leaving, Thread.owes, hcode, hrole, if_true, if_false,
          List.countP_append, List.countP_cons, List.countP_nil] at hset ⊢
        omega
    · have hzero : ∀ {u : Thread}, u.session = t.session → u.leaving sid = 0 := by
        intro u hu
        rw [Thread.leaving, Thread.owes_of_ne (by rw [hu]; exact hsid), ite_self]
      have hnone : ∀ t' op' rest', s.executing (.exec i ok replies) = some (t', op', rest') →
          t'.session ≠ sid := by
        intro t' op' rest' hexec
        rw [executing_eq hi hcode] at hexec
        obtain rfl := (Prod.mk.inj (Option.some.inj hexec)).1
        exact hsid
      refine .kept hnone ?_ ?_ (pending_enters_of_not_executed hs hnone) ?_
      · rw [hsh]
        exact mem_execOp_sessionMap_of_ne _ _ _ _ _ _ _ _ (Ne.symm hsid)
      · rw [hsh, execOp_sessionIdSet rfl]
        split
        · simp [Ne.symm hsid]
        · split
          · simp [Ne.symm hsid]
          · rfl
      · simpa only [hzero, Nat.add_zero] using hset
  | _ => exact hkept fun _ _ _ heq => by cases heq

/-! ## What every step keeps -/

/-- Past `OnSessionLeaved`, and not yet at the end of `ReleaseSession`'s erase. -/
def Thread.erasing (t : Thread) : Prop :=
  .eraseSession ∈ t.code ∧ t.code.head? ≠ some .onSessionLeaved

/-- A thread that is on its way to erase its session stays on it, until it is there. -/
theorem Exiting.erasing_exec {u : Thread} (hex : Exiting (op :: rest))
    (hmem : .eraseSession ∈ op :: rest) (hleave : op ≠ .onSessionLeaved)
    (herase : op ≠ .eraseSession) (ho : o = execOp cfg op ok replies sid sh se res) :
    Thread.erasing { u with result := o.result, code := o.code ++ rest } := by
  have hrel := (hex.exits_of_mem hmem).resolve_left hleave
  have hrest : .eraseSession ∈ rest := (List.mem_cons.mp hmem).resolve_left (Ne.symm herase)
  have hnil : o.code = [] := by
    subst ho
    cases op <;> first | rfl | cases hrel
  rw [hnil]
  exact ⟨hrest, hex.head_ne hrest⟩

/-- **What holds of the map and the set while a run keeps them together.** -/
structure Tracked (s : State) : Prop where
  exiting : ∀ t ∈ s.threads, Exiting t.code
  /-- Only the accepter enters a session. -/
  enters : ∀ t ∈ s.threads, t.role ≠ .accepter → t.code.countP Op.enters = 0
  /-- Whoever erases a session has taken it out of the set, or will still give a reference back. -/
  erasing : ∀ t ∈ s.threads, t.erasing →
    (t.session ∉ s.shared.sessionIdSet ∧ s.pending Op.enters t.session = 0) ∨
      (t.role ≠ .sender ∧ 0 < t.code.countP Op.leaves)
  /-- A session in the set and not in the map is going to leave. -/
  stale : ∀ sid, sid ∉ s.shared.sessionMap →
    sid ∈ s.shared.sessionIdSet ∨ 0 < s.pending Op.enters sid → 0 < s.leaving sid
  /-- A session in the map is in the set, about to enter it, or about to be erased. -/
  listed : ∀ sid ∈ s.shared.sessionMap, sid ∈ s.shared.sessionIdSet ∨ 0 < s.pending Op.enters sid ∨
    ∃ t ∈ s.threads, t.session = sid ∧ t.erasing

theorem tracked_initial (numOfWorkerThread senders : ℕ) :
    Tracked (initialState numOfWorkerThread senders) := by
  refine ⟨fun t ht => ?_, fun t ht _ => ?_, fun t ht herase => ?_, fun sid _ h => ?_,
    fun sid h => ?_⟩
  · rw [(idle_initial ht).1]
    exact trivial
  · rw [(idle_initial ht).1]
    rfl
  · rw [Thread.erasing, (idle_initial ht).1] at herase
    cases herase.1
  · rw [pending_initial] at h
    simp [initialState] at h
  · simp [initialState] at h

/-- **A tracked server that nothing is happening in has the same ids in both.** -/
theorem Tracked.broadcastFollows (h : Tracked s) : BroadcastFollows s := by
  intro hquiet
  have hhead : ∀ t ∈ s.threads, ∀ op ∈ t.code, op.enters = false ∧ ¬ t.erasing ∧
      (t.role ≠ .sender → op.leaves = false) := by
    intro t ht op hop
    have hin := hquiet t ht
    unfold Thread.inside at hin
    cases hrole : t.role with
    | accepter =>
      rw [hrole] at hin
      have hcode : t.code = [.incSessionCount] := by
        by_contra hne
        exact hin ⟨List.ne_nil_of_mem hop, hne⟩
      rw [hcode] at hop
      obtain rfl := List.mem_singleton.mp hop
      refine ⟨rfl, ?_, fun _ => rfl⟩
      rw [Thread.erasing, hcode]
      simp
    | worker k =>
      rw [hrole] at hin
      exact absurd (List.ne_nil_of_mem hop) hin
    | sender =>
      rw [hrole] at hin
      refine ⟨?_, ?_, fun hne => absurd rfl hne⟩
      · have hzero := h.enters t ht (by rw [hrole]; exact nofun)
        simpa using List.countP_eq_zero.mp hzero op hop
      · rintro ⟨hmem, hne⟩
        cases hcode : t.code with
        | nil => rw [hcode] at hop; cases hop
        | cons op' rest =>
          have hex := h.exiting t ht
          rw [hcode] at hmem hne hex
          rcases hex.exits_of_mem hmem with rfl | hrel
          · exact hne rfl
          · exact hin ⟨op', rest, hcode, hrel⟩
  have henters : ∀ sid, s.pending Op.enters sid = 0 := by
    intro sid
    by_contra hpos
    obtain ⟨t, ht, -, op, hop, hen⟩ := exists_of_pending_pos (Nat.pos_of_ne_zero hpos)
    rw [(hhead t ht op hop).1] at hen
    cases hen
  ext sid
  constructor
  · intro hset
    by_contra hmap
    obtain ⟨t, ht, hpos⟩ := tally_pos.mp (h.stale sid hmap (.inl hset))
    unfold Thread.leaving Thread.owes at hpos
    split at hpos
    · omega
    · rename_i hrole
      split at hpos
      · obtain ⟨op, hop, hl⟩ := List.countP_pos_iff.mp hpos
        rw [(hhead t ht op hop).2.2 hrole] at hl
        cases hl
      · omega
  · intro hmap
    rcases h.listed sid hmap with hset | hpos | ⟨t, ht, -, herase⟩
    · exact hset
    · rw [henters] at hpos
      omega
    · exact absurd herase (hhead t ht _ herase.1).2.1

/-! ## The invariant is kept -/

/-- Out of the set for good. -/
def Left (sid : SessionId) (s : State) : Prop :=
  sid ∉ s.shared.sessionIdSet ∧ s.pending Op.enters sid = 0

/-- **A session that has left does not enter**, except by an `emplace`. -/
theorem Left.step (h : Left sid s) (hs : Step cfg s e s') (hem : s.pending Op.emplaces sid = 0) :
    Left sid s' := by
  obtain ⟨hset, hzero⟩ := h
  cases hs.tracks sid with
  | kept hnone hmap hset' hp hl => exact ⟨fun hin => hset (hset'.mp hin), hp.trans hzero⟩
  | @executed s' i t op rest o ok replies hi hsid hcode ho hsh hthreads hp hl =>
    have hentered : op ≠ .onSessionEntered := by
      rintro rfl
      exact absurd (next_eq_false hi hsid hcode hzero) (by decide)
    have hemplace : op ≠ .emplaceSession := by
      rintro rfl
      exact absurd (next_eq_false hi hsid hcode hem) (by decide)
    rw [execOp_enters ho, if_neg fun hc => hemplace hc.1] at hp
    refine ⟨?_, by omega⟩
    rw [hsh, execOp_sessionIdSet ho, if_neg hentered]
    split
    · exact fun hin => hset (Finset.mem_of_mem_erase hin)
    · exact hset

/-- `OnSessionLeaved` leaves the set, for good where nothing is entering. -/
theorem left_of_onSessionLeaved (hs : Step cfg s (.exec i ok replies) s')
    (hi : s.threads[i]? = some t) (hcode : t.code = .onSessionLeaved :: rest)
    (hzero : s.pending Op.enters t.session = 0) : Left t.session s' := by
  have hp := hs.exec_pending hi hcode Op.enters
  rw [execOp_enters rfl, if_neg fun hc => nomatch hc.1] at hp
  refine ⟨?_, by omega⟩
  rw [hs.exec_shared hi hcode, execOp_sessionIdSet rfl]
  simp

/-- A session somebody erases is not waiting for its `emplace`. -/
theorem Entering.emplaces_eq_zero_of_erasing (h : Entering s) (ht : t ∈ s.threads)
    (herase : .eraseSession ∈ t.code) : s.pending Op.emplaces t.session = 0 := by
  by_contra hpos
  rcases h.code t ht (Nat.pos_of_ne_zero hpos) with hc | hc <;>
    · rw [hc] at herase
      simp [makeNewSession] at herase

theorem exiting_step (h : Tracked s) (hrc : RefCounted s) (hs : Step cfg s e s') :
    ∀ t ∈ s'.threads, Exiting t.code := by
  have hold := h.exiting
  cases hs with
  | acceptFailed i threadId => exact hold
  | accepted hi hcode hid => exact forall_mem_set hold (exiting_of_none rfl)
  | gotSession hi hcode hmem =>
    have ht := hold _ (List.mem_of_getElem? hi)
    exact forall_mem_set hold ht
  | called hi hcode hne hcall => exact forall_mem_set hold (exiting_of_none hcall.countP_eq_zero)
  | completed data hc => exact hold
  | dequeued hi hcode hrole hc => exact forall_mem_set hold (exiting_of_none rfl)
  | executed ok replies hi hcode ho =>
    have hex := hold _ (List.mem_of_getElem? hi)
    rw [hcode] at hex
    refine forall_mem_set hold (hex.exec ho ?_)
    rintro rfl
    exact hrc.notMem_of_emplace hi hcode

theorem enters_step (h : Tracked s) (has : Assignment s) (hs : Step cfg s e s') :
    ∀ t ∈ s'.threads, t.role ≠ .accepter → t.code.countP Op.enters = 0 := by
  have hold := h.enters
  cases hs with
  | acceptFailed i threadId => exact hold
  | accepted hi hcode hid => exact forall_mem_set hold fun _ => rfl
  | gotSession hi hcode hmem =>
    have ht := hold _ (List.mem_of_getElem? hi)
    exact forall_mem_set hold ht
  | called hi hcode hne hcall => exact forall_mem_set hold fun _ => hcall.countP_eq_zero
  | completed data hc => exact hold
  | dequeued hi hcode hrole hc => exact forall_mem_set hold fun _ => rfl
  | @executed i t op rest o ok replies hi hcode ho =>
    refine forall_mem_set hold fun hrole => ?_
    have ht := List.mem_of_getElem? hi
    have hzero := hold t ht hrole
    have hem := (has.assigned t ht).emplaces hrole
    rw [hcode, List.countP_cons] at hzero hem
    have hop : op ≠ .emplaceSession := by
      rintro rfl
      simp [Op.emplaces] at hem
    rw [List.countP_append, execOp_enters ho, if_neg fun hc => hop hc.1]
    omega

/-- A reference to give back is a way to leave. -/
theorem countP_anchors_le (l : List Op) : l.countP Op.anchors ≤ l.countP Op.leaves := by
  refine List.countP_mono_left fun op _ hop => ?_
  cases op <;> first | rfl | cases hop

theorem erasing_step (h : Tracked s) (hau : Audited s) (hst : Staffed s)
    (hkeeps : KeepsBroadcast s e) (hs : Step cfg s e s') : ∀ t ∈ s'.threads, t.erasing →
      Left t.session s' ∨ (t.role ≠ .sender ∧ 0 < t.code.countP Op.leaves) := by
  have hold : ∀ t ∈ s.threads, t.erasing →
      Left t.session s' ∨ (t.role ≠ .sender ∧ 0 < t.code.countP Op.leaves) := by
    intro t ht herase
    rcases h.erasing t ht herase with hleft | hback
    · exact .inl (Left.step hleft hs (hau.entering.emplaces_eq_zero_of_erasing ht herase.1))
    · exact .inr hback
  have hnone : ∀ {code : List Op}, code.countP Op.exits = 0 → .eraseSession ∉ code :=
    fun hzero hin => List.countP_eq_zero.mp hzero _ hin rfl
  have hs' := hs
  cases hs with
  | acceptFailed i threadId => exact hold
  | accepted hi hcode hid =>
    exact forall_mem_set hold fun herase => absurd herase.1 (hnone rfl)
  | gotSession hi hcode hmem =>
    refine forall_mem_set hold fun herase => ?_
    have herase := herase.1
    rw [hcode] at herase
    cases herase
  | called hi hcode hne hcall =>
    exact forall_mem_set hold fun herase => absurd herase.1 (hnone hcall.countP_eq_zero)
  | completed data hc => exact hold
  | dequeued hi hcode hrole hc =>
    exact forall_mem_set hold fun herase => absurd herase.1 (hnone rfl)
  | @executed i t op rest o ok replies hi hcode ho =>
    refine forall_mem_set hold ?_
    rintro ⟨hmem, hhead⟩
    have ht := List.mem_of_getElem? hi
    have hex := h.exiting t ht
    have hemplace : op = .emplaceSession → t.session ∉ s.shared.sessionMap := by
      rintro rfl
      exact hau.refCounted.notMem_of_emplace hi hcode
    rcases List.mem_append.mp hmem with hnew | hrest
    · -- `RecvCompleted` calls `ReleaseSession`; its own reference is behind
      rcases execOp_exits ho hemplace with hzero | ⟨-, hleave⟩ | ⟨rfl, hrelease⟩
      · exact absurd hnew (hnone hzero)
      · rw [hleave] at hhead
        exact absurd rfl hhead
      · have hg := hau.refCounted.guarded t ht
        rw [hcode] at hg
        have hlt := hg.1 rfl
        have hle := countP_anchors_le rest
        have hrole := hst.staged t ht _ (by rw [hcode]; exact List.mem_cons_self) rfl
        refine .inr ⟨by rw [hrole]; exact nofun, ?_⟩
        rw [List.countP_append]
        omega
    · have hin : .eraseSession ∈ op :: rest := List.mem_cons_of_mem _ hrest
      rw [hcode] at hex
      rcases hex.exits_of_mem hin with rfl | hrel
      · -- it has just left
        have hleft := left_of_onSessionLeaved hs' hi hcode
          ((hkeeps t _ _ (executing_eq hi hcode)).1 rfl)
        exact .inl hleft
      · have herase : t.erasing := by
          refine ⟨by rw [hcode]; exact hin, ?_⟩
          rw [hcode]
          rintro ⟨⟩
          cases hrel
        rcases hold t ht herase with hleft | ⟨hrole, hpos⟩
        · exact .inl hleft
        · refine .inr ⟨hrole, ?_⟩
          have hop : op.leaves = false := by
            cases op <;> first | rfl | cases hrel
          rw [hcode, List.countP_cons, hop] at hpos
          rw [List.countP_append]
          simp only [Bool.false_eq_true, if_false] at hpos
          omega

/-- **A session in the set and not in the map keeps a thread that will leave it.** -/
theorem stale_step (h : Tracked s) (hau : Audited s) (hkeeps : KeepsBroadcast s e)
    (hs : Step cfg s e s') (hmap : sid ∉ s'.shared.sessionMap)
    (hin : sid ∈ s'.shared.sessionIdSet ∨ 0 < s'.pending Op.enters sid) : 0 < s'.leaving sid := by
  cases hs.tracks sid with
  | kept hnone hmap' hset' hp hl =>
    rw [hset', hp] at hin
    rw [hl]
    exact h.stale sid (fun hm => hmap (hmap'.mpr hm)) hin
  | @executed s' i t op rest o ok replies hi hsid hcode ho hsh hthreads hp hl =>
    subst hsid
    have ht := List.mem_of_getElem? hi
    have hnotin : op = .emplaceSession → t.session ∉ s.shared.sessionMap := by
      rintro rfl
      exact hau.refCounted.notMem_of_emplace hi hcode
    have hemplace : op ≠ .emplaceSession := by
      rintro rfl
      rw [hsh, ho, execOp_sessionMap, if_pos rfl] at hmap
      exact hmap (Finset.mem_insert_self _ _)
    rw [execOp_enters ho, if_neg fun hc => hemplace hc.1] at hp
    have hnext := hkeeps t op rest (executing_eq hi hcode)
    have hset := execOp_sessionIdSet ho
    rw [hsh] at hin hmap
    by_cases hleave : op = .onSessionLeaved
    · -- it leaves the set, and nothing is entering
      subst hleave
      have hzero := hnext.1 rfl
      rw [hset, if_neg nofun, if_pos rfl] at hin
      rcases hin with hin | hpos
      · exact absurd rfl (Finset.ne_of_mem_erase hin)
      · omega
    · have hin' : t.session ∈ s.shared.sessionIdSet ∨ 0 < s.pending Op.enters t.session := by
        rcases hin with hin | hpos
        · by_cases hentered : op = .onSessionEntered
          · subst hentered
            exact .inr (pending_pos_of_next hi rfl hcode rfl)
          · rw [hset, if_neg hentered, if_neg hleave] at hin
            exact .inl hin
        · exact .inr (by omega)
      by_cases herase : op = .eraseSession
      · -- it leaves the map: whoever erases it without having left it gives a reference back
        subst herase
        have herasing : t.erasing := ⟨by rw [hcode]; exact List.mem_cons_self, by rw [hcode]; nofun⟩
        rcases h.erasing t ht herasing with ⟨hnot, hzero⟩ | ⟨hrole, hpos⟩
        · rcases hin' with hin' | hin'
          · exact absurd hin' hnot
          · omega
        · have hle : t.leaving t.session ≤ s.leaving t.session := le_tally_of_mem ht
          rw [Thread.leaving, if_neg hrole, Thread.owes_self] at hle
          rw [if_neg hrole] at hl
          simp only [List.countP_singleton, Op.leaves, Bool.false_eq_true, if_false] at hl
          omega
      · have hmap' : t.session ∉ s.shared.sessionMap := by
          rwa [ho, execOp_sessionMap, if_neg hemplace, if_neg herase] at hmap
        have hpos := h.stale t.session hmap' hin'
        by_cases hrole : t.role = .sender
        · rw [if_pos hrole, if_pos hrole] at hl
          omega
        · rw [if_neg hrole, if_neg hrole] at hl
          by_cases hcount : op = .ioCountDecrement ∧ (s.session t.session).ioCount ≠ 1
          · obtain ⟨rfl, hne⟩ := hcount
            have hmore := (hnext.2 rfl hrole hmap' hin').resolve_left hne
            simp only [List.countP_singleton, Op.leaves, if_true] at hl
            omega
          · have hle := execOp_leaves ho (hau.assignment.assigned t ht).result hleave
              fun hop => not_not.mp fun hne => hcount ⟨hop, hne⟩
            omega

/-- A thread with something to do stays as it is until it executes. -/
theorem Step.mem_threads (hs : Step cfg s e s') (ht : t ∈ s.threads) (hne : t.code ≠ []) :
    t ∈ s'.threads ∨ ∃ op rest, s.executing e = some (t, op, rest) := by
  have hset : ∀ {i : ℕ} {u v : Thread}, s.threads[i]? = some u → t ≠ u →
      t ∈ s.threads.set i v := by
    intro i u v hi hne
    obtain ⟨j, hj⟩ := List.mem_iff_getElem?.mp ht
    refine List.mem_iff_getElem?.mpr ⟨j, ?_⟩
    rw [List.getElem?_set_ne ?_, hj]
    rintro rfl
    exact hne (Option.some.inj (hj.symm.trans hi))
  have hidle : ∀ {u : Thread}, u.code = [] → t ≠ u := by
    rintro u hu rfl
    exact hne hu
  cases hs with
  | acceptFailed i threadId => exact .inl ht
  | accepted hi hcode hid => exact .inl (hset hi (hidle hcode))
  | gotSession hi hcode hmem => exact .inl (hset hi (hidle hcode))
  | called hi hcode hne hcall => exact .inl (hset hi (hidle hcode))
  | completed data hc => exact .inl ht
  | dequeued hi hcode hrole hc => exact .inl (hset hi (hidle hcode))
  | @executed i u op rest o ok replies hi hcode ho =>
    by_cases htu : t = u
    · subst htu
      exact .inr ⟨op, rest, executing_eq hi hcode⟩
    · exact .inl (hset hi htu)

/-- **A session in the map stays in the set until somebody is about to erase it.** -/
theorem listed_step (h : Tracked s) (hrc : RefCounted s) (hs : Step cfg s e s')
    (hmap : sid ∈ s'.shared.sessionMap) :
    sid ∈ s'.shared.sessionIdSet ∨ 0 < s'.pending Op.enters sid ∨
      ∃ t ∈ s'.threads, t.session = sid ∧ t.erasing := by
  cases hs.tracks sid with
  | kept hnone hmap' hset' hp hl =>
    rw [hset', hp]
    refine (h.listed sid (hmap'.mp hmap)).imp_right (Or.imp_right ?_)
    rintro ⟨t, ht, hsid, herase⟩
    rcases hs.mem_threads ht (List.ne_nil_of_mem herase.1) with hin | ⟨op, rest, hexec⟩
    · exact ⟨t, hin, hsid, herase⟩
    · exact absurd hsid (hnone _ _ _ hexec)
  | @executed s' i t op rest o ok replies hi hsid hcode ho hsh hthreads hp hl =>
    subst hsid
    have ht := List.mem_of_getElem? hi
    have hset := execOp_sessionIdSet ho
    have hnew : { t with result := o.result, code := o.code ++ rest } ∈ s'.threads := by
      rw [hthreads]
      exact List.mem_set (List.getElem?_eq_some_iff.mp hi).1 _
    have hex := h.exiting t ht
    rw [hcode] at hex
    by_cases hemplace : op = .emplaceSession
    · subst hemplace
      rw [execOp_enters ho, if_pos ⟨rfl, hrc.notMem_of_emplace hi hcode⟩] at hp
      simp only [List.countP_singleton, Op.enters, Bool.false_eq_true, if_false] at hp
      exact .inr (.inl (by omega))
    · rw [hsh, ho, execOp_sessionMap, if_neg hemplace] at hmap
      by_cases herase : op = .eraseSession
      · rw [if_pos herase] at hmap
        exact absurd rfl (Finset.ne_of_mem_erase hmap)
      · rw [if_neg herase] at hmap
        rw [execOp_enters ho, if_neg fun hc => hemplace hc.1] at hp
        rw [hsh, hset]
        by_cases hentered : op = .onSessionEntered
        · rw [if_pos hentered]
          exact .inl (Finset.mem_insert_self _ _)
        · rw [if_neg hentered]
          by_cases hleave : op = .onSessionLeaved
          · -- the erase is next
            subst hleave
            have hnil : o.code = [] := by rw [ho]; rfl
            obtain ⟨behind, rfl, -⟩ := hex
            refine .inr (.inr ⟨_, hnew, rfl, ?_⟩)
            rw [hnil]
            exact ⟨by simp [exitAfter, releaseSession], nofun⟩
          · rw [if_neg hleave]
            rcases h.listed _ hmap with hin | hpos | ⟨u, hu, husid, huerase⟩
            · exact .inl hin
            · have hzero : [op].countP Op.enters = 0 := by
                cases op <;> first | rfl | exact absurd rfl hentered
              exact .inr (.inl (by omega))
            · rcases hs.mem_threads hu (List.ne_nil_of_mem huerase.1) with
                hstays | ⟨op', rest', hexec⟩
              · exact .inr (.inr ⟨u, hstays, husid, huerase⟩)
              · rw [executing_eq hi hcode] at hexec
                obtain rfl := (Prod.mk.inj (Option.some.inj hexec)).1
                have hmem := huerase.1
                rw [hcode] at hmem
                exact .inr (.inr ⟨_, hnew, rfl, hex.erasing_exec hmem hleave herase ho⟩)

theorem tracked_step (h : Tracked s) (hau : Audited s) (hst : Staffed s)
    (hkeeps : KeepsBroadcast s e) (hs : Step cfg s e s') : Tracked s' where
  exiting := exiting_step h hau.refCounted hs
  enters := enters_step h hau.assignment hs
  erasing := erasing_step h hau hst hkeeps hs
  stale _ := stale_step h hau hkeeps hs
  listed _ := listed_step h hau.refCounted hs

/-- **The broadcast set follows the session map** in every run in which no session leaves the set
before it has entered it, and the count of a session that `RecvCompleted` released falls to 0. -/
theorem broadcastFollows_of_reachableUnder
    (h : (system cfg).ReachableUnder KeepsBroadcast s) : BroadcastFollows s := by
  have hinv : (system cfg).Reachable s ∧ Staffed s ∧ Tracked s := by
    induction h with
    | init hinit =>
      obtain ⟨numOfWorkerThread, senders, rfl⟩ := hinit
      exact ⟨.init ⟨_, _, rfl⟩, staffed_initial _ _, tracked_initial _ _⟩
    | step _ hkeeps hstep ih =>
      obtain ⟨hreach, hst, htr⟩ := ih
      have hau := audited_of_reachable hreach
      have hs := step_cases hstep
      exact ⟨.step hreach trivial hstep, staffed_step hst hau.refCounted hs,
        tracked_step htr hau hst hkeeps hs⟩
  exact hinv.2.2.broadcastFollows

/-- A session enters, receives a packet and goes with its next, empty completion. -/
theorem broadcastFollows_disconnected : ∃ s, BroadcastFollows s ∧ s.nextSessionId = 2 ∧
    (s.session 2).releases = 1 ∧ s.shared.sessionIdSet = ∅ := by
  obtain ⟨s, hreach, hs⟩ := System.exists_reachableUnder (system checksumConfig)
    (.accept 0 0 [] true :: execs 0 7 ++ [.complete 2 0 [119], .dequeue 1 2 0] ++ execs 1 7 ++
      [.complete 2 0 [], .dequeue 1 2 0] ++ execs 1 8)
    (s := initialState 1 0) (c := fun s e => decide (KeepsBroadcast s e))
    (f := fun s => s.nextSessionId = 2 ∧ (s.session 2).releases = 1 ∧ s.shared.sessionIdSet = ∅)
    ⟨1, 0, rfl⟩ (by decide +kernel)
  have hkeeps := hreach.mono fun _ _ => of_decide_eq_true
  exact ⟨s, broadcastFollows_of_reachableUnder hkeeps, of_decide_eq_true hs⟩

/-- **The first receive fails**: the session leaves before it enters, and stays in the set for ever
after it was released. -/
theorem not_broadcastFollows_failedReceive : ∃ s, (system checksumConfig).Reachable s ∧
    ¬ BroadcastFollows s := by
  obtain ⟨s, hreach, hs⟩ := System.exists_reachable (system checksumConfig)
    (.accept 0 0 [] true :: execs 0 2 ++ [.exec 0 false []] ++ execs 0 9)
    (s := initialState 1 0)
    (f := fun s => (∀ t ∈ s.threads, t.code = []) ∧ s.shared.sessionIdSet = {2} ∧
      s.shared.sessionMap = ∅)
    ⟨1, 0, rfl⟩ (by decide +kernel)
  obtain ⟨hidle, hset, hmap⟩ := of_decide_eq_true hs
  refine ⟨s, hreach, fun hfollows => ?_⟩
  have heq := hfollows fun t ht => Thread.not_inside_of_idle (hidle t ht)
  rw [hset, hmap] at heq
  exact Finset.singleton_ne_empty 2 heq

end RIOServer

end DdingGameServer
