import DdingGameServer.MultiLanClient.Token
/-!
# MultiLanClient — references, releases and the reconnect list

`m_IOCount` counts the overlapped operations of a session and the workers that handle their
completions. Two steps break the account: a `RecvPost` that finds the ring full gives back a
reference that its caller gives back again, and a `SendPost` on a session nobody refers to raises
the count from 0. In runs without them the count is exact, and a session whose count is 0 is in
one place: at a thread in `ReleaseSession`, in `sessionReconnectIdList`, or at a caller of
`RecvPost` that is about to make the first reference.
-/

namespace DdingGameServer

namespace MultiLanClient

variable {cfg : Config} {s s' : State} {e : Event} {sid : ℕ} {op : Op} {ok : Bool} {se : Session}
  {ids : List ℕ} {o : Outcome} {c : Caller} {r : PostRetval}

/-! ## The account -/

/-- A worker holds the reference of the completion it handles. -/
def Caller.refs : Caller → ℕ
  | .worker => 1
  | _ => 0

/-- The references a thread holds: a worker's, and the one counted for the call it is about to make.
`ReleaseSession` is entered without any. -/
def Op.refs : Op → ℕ
  | .sendPostCas c | .getRestSize c | .resetMode c | .recheckRestSize c | .dequeue c _ _
  | .setBufferCount c _ | .countSend c _ | .recvPost c | .countRecv c => c.refs
  | .wsaSend c _ | .wsaRecv c => c.refs + 1
  | .recvCompleted _ | .sendCompleted | .freeSent _ _ | .subtractCount _ | .resetSending
  | .workerEnd => 1
  | _ => 0

/-- The overlapped operations of a session that no worker has taken up yet. -/
def Session.outstanding (se : Session) : ℕ := se.posted.length + se.completed.length

/-- Nobody refers to the session. -/
def Session.unreferenced (se : Session) : ℕ := if se.ioCount = 0 then 1 else 0

/-- 1 for a caller of `RecvPost` that is neither a worker nor at the front of the list: `Start`. -/
def Caller.starts : Caller → ℕ
  | .worker => 0
  | .reconnecter => 0
  | .sendPacketImpl => 1
  | .start => 1

/-- 1 for `Start` before it has made the first reference. -/
def Op.starts : Op → ℕ
  | .recvPost c | .countRecv c => c.starts
  | _ => 0

/-- 1 for `Reconnecter`. -/
def Caller.settles : Caller → ℕ
  | .reconnecter => 1
  | _ => 0

/-- 1 for `Reconnecter` between the reference it has made for the new connection and its
`pop_front`. -/
def Op.settles : Op → ℕ
  | .popFront => 1
  | .wsaRecv c | .releaseSession c | .readRestSize c _ | .freeStored c _ _ _ | .freeQueued c _ _
  | .closeSocket c | .invalidateSocket c | .pushReconnect c => c.settles
  | _ => 0

/-- 1 for an operation of `Reconnecter`. -/
def Op.reconnects (op : Op) : ℕ := if op.role = .reconnecter then 1 else 0

/-- **What keeps the account**: a full ring is found by a worker with the last reference, which
`RecvPost` gives back for it, and a `SendPost` raises the count from a positive value only. -/
def Op.balanced (cfg : Config) (se : Session) : Op → Bool
  | .recvPost c =>
    se.ringBuffer.length < cfg.ringCapacity ∨ (c = .worker ∧ se.ioCount = 1)
  | .countSend _ _ => 0 < se.ioCount
  | _ => true

/-- The step keeps the account of the session `sid`. -/
def balanced (cfg : Config) (sid : ℕ) (s : State) (e : Event) : Bool :=
  match s.running sid e with
  | some (op, _) => op.balanced cfg (s.session sid)
  | none => true

theorem Op.balanced_of_running (h : MultiLanClient.balanced cfg sid s e = true)
    (hrun : s.running sid e = some (op, ok)) : op.balanced cfg (s.session sid) = true := by
  simpa only [MultiLanClient.balanced, hrun] using h

/-! ## One operation -/

theorem refs_resume (h : r ≠ .errSessionDeleted) : tally Op.refs (c.resume r).toList = c.refs := by
  cases c <;> cases r <;> first | rfl | exact absurd rfl h

@[simp] theorem refs_resume_deleted : tally Op.refs (c.resume .errSessionDeleted).toList = 0 := by
  cases c <;> rfl

@[simp] theorem starts_resume : tally Op.starts (c.resume r).toList = 0 := by
  cases c <;> cases r <;> rfl

/-- **An operation keeps the account**: references are counted where they are made and where they
are given back. -/
theorem Exec.refs (h : Exec cfg ok sid se ids op o) (hbal : op.balanced cfg se = true)
    (hrefs : (op.refs : ℤ) ≤ se.ioCount) :
    (o.session.outstanding : ℤ) + tally Op.refs o.next.toList + se.ioCount =
      se.outstanding + op.refs + o.session.ioCount := by
  cases h with
  | casFailed c | recheckEmpty c =>
    rw [refs_resume (by simp)]
    simp only [Op.refs]
  | recvPosted c =>
    rw [refs_resume (by simp)]
    simp only [Op.refs, Session.outstanding, List.length_append, List.length_singleton]
    omega
  | sent c =>
    simp only [Op.refs, Session.outstanding, List.length_append, List.length_singleton,
      Option.toList_some, tally_cons, tally_nil]
    omega
  | sendFailed c b | recvFailed c =>
    rw [tally_decrement, refs_resume (by simp)]
    simp only [Op.refs] at hrefs ⊢
    simp only [decrement, Session.outstanding]
    split <;> omega
  | ringFull c hfull =>
    -- a worker with the last reference: `RecvPost` gives it back in the worker's place
    simp only [Op.balanced, decide_eq_true_eq] at hbal
    obtain ⟨rfl, hone⟩ := hbal.resolve_left (by omega)
    rw [tally_decrement, if_pos hone]
    simp only [decrement, Session.outstanding, Op.refs, Caller.refs]
    omega
  | workerEnded =>
    rw [tally_decrement]
    simp only [decrement, Session.outstanding, Op.refs, Option.toList_none, tally_nil, ite_self]
    omega
  | sendCounted | recvCounted =>
    simp only [Op.refs, Session.outstanding, Option.toList_some, tally_cons, tally_nil]
    omega
  | pushed c =>
    rw [refs_resume_deleted]
    simp only [Op.refs]
  | socketClosed c =>
    dsimp only
    split
    · simp [Op.refs, Session.outstanding]
    · rw [refs_resume_deleted]
      simp [Op.refs, Session.outstanding]
  | recvHandled | sentFreed | sentDone | sendBegun | countSubtracted | sendReset =>
    simp [Op.refs, Session.outstanding, Caller.refs]
  | _ => simp [Op.refs, Session.outstanding, Caller.refs]

/-- What stands for a session nobody refers to: a thread in `ReleaseSession`, an entry of the
list, or `Start` on its way. -/
def Op.placed (op : Op) : ℕ := op.releases + op.starts

@[simp] theorem placed_resume : tally Op.placed (c.resume r).toList = 0 := by
  cases c <;> cases r <;> rfl

/-- `Reconnecter` takes a session off the list, and `ReleaseSession` puts one on. -/
def Op.pops : Op → ℕ
  | .popFront => 1
  | _ => 0

def Op.pushes : Op → ℕ
  | .pushReconnect _ => 1
  | _ => 0

theorem Exec.count (h : Exec cfg ok sid se ids op o)
    (hfront : op = .popFront → ids.head? = some sid) :
    o.reconnectIdList.count sid + op.pops = ids.count sid + op.pushes := by
  cases h with
  | pushed c =>
    rw [List.count_append, List.count_singleton_self]
    rfl
  | popped =>
    obtain ⟨ids', rfl⟩ := List.head?_eq_some_iff.mp (hfront rfl)
    rw [List.tail_cons, List.count_cons_self]
    rfl
  | _ => rfl

/-- `Reconnecter` still has its `pop_front` to do. -/
@[simp] theorem settles_resume : tally Op.settles (c.resume r).toList = c.settles := by
  cases c <;> cases r <;> rfl

/-- A decrement turns the last reference into a `ReleaseSession`. -/
theorem placed_decrement (se : Session) (ids : List ℕ) (c : Caller) (next : Option Op)
    (hpos : 1 ≤ se.ioCount) (hnext : tally Op.placed next.toList = 0) :
    tally Op.placed (decrement se ids c next).next.toList + se.unreferenced ≤
      (decrement se ids c next).session.unreferenced := by
  have hone : se.ioCount - 1 = 0 ↔ se.ioCount = 1 := by omega
  rw [tally_decrement, hnext]
  simp only [decrement, Session.unreferenced, hone, Op.placed, Op.releases, Op.starts]
  split <;> split <;> omega

theorem settles_decrement {next : Option Op} (hnext : tally Op.settles next.toList = c.settles) :
    tally Op.settles (decrement se ids c next).next.toList = c.settles := by
  rw [tally_decrement, hnext]
  exact ite_self _

/-- **An operation keeps every unreferenced session in its place.** -/
theorem Exec.placed (h : Exec cfg ok sid se ids op o) (hbal : op.balanced cfg se = true)
    (hrefs : (op.refs : ℤ) ≤ se.ioCount) (hpos : 0 ≤ se.ioCount) :
    tally Op.placed o.next.toList + op.pushes + se.unreferenced + op.settles ≤
      op.placed + op.pops + o.session.unreferenced + tally Op.settles o.next.toList := by
  cases h with
  | casFailed c | recheckEmpty c =>
    rw [placed_resume]
    simp only [Op.pushes, Op.settles]
    omega
  | recvPosted c =>
    rw [placed_resume, settles_resume]
    simp only [Op.pushes, Op.settles, Session.unreferenced]
    omega
  | sendFailed c b =>
    simp only [Op.refs] at hrefs
    have := placed_decrement se ids c (c.resume .err) (by omega) placed_resume
    simp only [Op.pushes, Op.settles, Op.pops, Op.placed] at this ⊢
    omega
  | recvFailed c =>
    simp only [Op.refs] at hrefs
    have := placed_decrement se ids c (c.resume .err) (by omega) placed_resume
    rw [settles_decrement settles_resume]
    simp only [Op.pushes, Op.settles, Op.pops, Op.placed] at this ⊢
    omega
  | ringFull c hfull =>
    simp only [Op.balanced, decide_eq_true_eq] at hbal
    obtain ⟨rfl, hone⟩ := hbal.resolve_left (by omega)
    have := placed_decrement se ids .worker (Caller.worker.resume .err) (by omega) placed_resume
    simp only [Op.pushes, Op.settles, Op.pops, Op.placed] at this ⊢
    omega
  | workerEnded =>
    simp only [Op.refs] at hrefs
    have := placed_decrement se ids .worker none (by omega) rfl
    simp only [Op.pushes, Op.settles, Op.pops, Op.placed] at this ⊢
    omega
  | sendCounted c =>
    simp only [Op.balanced, decide_eq_true_eq] at hbal
    simp only [Session.unreferenced, Op.pushes, Op.settles, Op.pops, Op.placed]
    rw [if_neg (by omega), if_neg (by omega)]
    simp [Op.placed, Op.releases, Op.starts]
  | recvCounted c =>
    simp only [Op.refs] at hrefs
    simp only [Session.unreferenced, Op.pushes, Op.settles, Op.pops, Op.placed, Op.releases,
      Op.starts, Option.toList_some, tally_cons, tally_nil]
    cases c <;> simp only [Caller.refs, Caller.starts, Caller.settles] at hrefs ⊢ <;>
      split <;> split <;> omega
  | pushed c =>
    simp [Op.pushes, Op.settles, Op.pops, Op.placed, Op.releases, Op.starts]
  | socketClosed c =>
    dsimp only
    split
    · simp [Op.pushes, Op.settles, Op.pops, Op.placed, Op.releases, Op.starts,
        Session.unreferenced]
    · simp [Op.pushes, Op.settles, Op.pops, Op.placed, Op.releases, Op.starts,
        Session.unreferenced]
  | popped =>
    simp only [Op.pushes, Op.settles, Op.pops, Option.toList_none, tally_nil]
    omega
  | _ =>
    simp [Op.pushes, Op.settles, Op.pops, Op.placed, Op.releases, Op.starts, Session.unreferenced,
      Caller.starts]

/-! ## One step -/

/-- What happens on other sessions moves no entry of this one. -/
theorem Step.count_of_other (hs : Step cfg s e s') (hst : Staffed cfg s)
    (hout : s.outcome cfg sid e = none) :
    s'.reconnectIdList.count sid = s.reconnectIdList.count sid := by
  cases hs with
  | @executed i t op o ok hi hop ho =>
    by_cases hsid : t.session = sid
    · subst hsid
      exact nomatch hout.symm.trans (outcome_eq (running_eq hi rfl hop) ho)
    · rcases (execOp_cases ho).reconnectIdList with h | ⟨hrole, -, -, h⟩ | h
      · exact congrArg (List.count sid) h
      · -- `Reconnecter` takes its own session off the front
        have hfront := hst.front t (List.mem_of_getElem? hi) op hop hrole
        obtain ⟨ids', hids⟩ := List.head?_eq_some_iff.mp hfront
        change o.reconnectIdList.count sid = _
        rw [h, hids, List.tail_cons, List.count_cons_of_ne hsid]
      · change o.reconnectIdList.count sid = _
        rw [h, List.count_append, List.count_singleton, if_neg (by simpa using hsid)]
        rfl
  | _ => rfl

/-- **The account of a session**: the count is exact, and while it is 0 the session is in one place
at most. -/
structure Referenced (sid : ℕ) (s : State) : Prop where
  ioCount : (s.session sid).ioCount = (s.session sid).outstanding + tally Op.refs (s.ops sid)
  placed : tally Op.placed (s.ops sid) + s.reconnectIdList.count sid ≤
    (s.session sid).unreferenced + tally Op.settles (s.ops sid)

theorem referenced_initial (senders : ℕ) : Referenced sid (initialState cfg senders) := by
  obtain ⟨hse, hops⟩ := (staffed_initial cfg senders).fresh sid (Nat.zero_le _)
  constructor
  · rw [hse, hops]
    rfl
  · rw [hops]
    exact Nat.zero_le _

theorem Completion.refs_op (c : Completion) : c.op.refs = 1 := by
  cases c with
  | recv data =>
    simp only [Completion.op]
    split <;> rfl
  | send b => rfl

theorem Completion.placed_op (c : Completion) : c.op.placed = 0 ∧ c.op.settles = 0 := by
  cases c with
  | recv data =>
    simp only [Completion.op]
    split <;> exact ⟨rfl, rfl⟩
  | send b => exact ⟨rfl, rfl⟩

/-- The references of a thread are counted. -/
theorem Referenced.refs_le (h : Referenced sid s) (hop : op ∈ s.ops sid) :
    (op.refs : ℤ) ≤ (s.session sid).ioCount := by
  have : op.refs ≤ tally Op.refs (s.ops sid) := le_tally_of_mem hop
  rw [h.ioCount]
  omega

theorem Referenced.ioCount_nonneg (h : Referenced sid s) : 0 ≤ (s.session sid).ioCount := by
  rw [h.ioCount]
  omega

/-- A thread that comes to the session without a reference. -/
theorem Referenced.enter (h : Referenced sid s) {op : Op}
    (hops : Replaces [] [op] (s.ops sid) (s'.ops sid)) (hrefs : op.refs = 0)
    (hplaced : op.placed = 0) (hse : s'.session sid = s.session sid)
    (hcount : s'.reconnectIdList.count sid = s.reconnectIdList.count sid) : Referenced sid s' := by
  have htrefs := hops.tally_eq Op.refs
  have htplaced := hops.tally_eq Op.placed
  have htsettles := hops.tally_eq Op.settles
  simp only [tally_nil, tally_cons] at htrefs htplaced htsettles
  constructor
  · rw [hse, h.ioCount]
    omega
  · have := h.placed
    rw [hse, hcount]
    omega

/-- **Every step that keeps the account of the session keeps the session in its place.** -/
theorem Referenced.step (h : Referenced sid s) (hst : Staffed cfg s)
    (hbal : balanced cfg sid s e = true) (hs : Step cfg s e s') : Referenced sid s' := by
  have hcount : s.outcome cfg sid e = none → _ := hs.count_of_other hst
  cases hs.alters sid with
  | kept hse hops hcrash =>
    constructor
    · rw [hse, hops, h.ioCount]
    · rw [hse, hops, hcount (outcome_of_crash hcrash)]
      exact h.placed
  | started hid hse hops =>
    obtain ⟨hnew, hnone⟩ := hst.fresh sid (hid ▸ le_rfl)
    have hnot : s.reconnectIdList.count sid = 0 := List.count_eq_zero.mpr fun hmem =>
      (hst.reached sid hmem).ne hid
    have htrefs := hops.tally_eq Op.refs
    have htplaced := hops.tally_eq Op.placed
    simp only [hnone, tally_nil, tally_cons] at htrefs htplaced
    constructor
    · rw [hse, hnew]
      simp only [Session.start, Session.new, Session.outstanding, List.length_nil, Op.refs,
        Caller.refs] at htrefs ⊢
      omega
    · rw [hcount rfl, hse, hnew, hnot]
      simp only [Session.start, Session.new, Session.unreferenced, Op.placed, Op.releases,
        Op.starts, Caller.starts, if_true] at htplaced ⊢
      omega
  | sent _ _ _ _ _ hse _ hops => exact h.enter hops rfl rfl hse (hcount rfl)
  | finished hr hse hops =>
    have hposted := List.length_eraseIdx_of_lt (List.getElem?_eq_some_iff.mp hr).1
    have hpos := (List.getElem?_eq_some_iff.mp hr).1
    constructor
    · rw [hse, hops]
      have := h.ioCount
      simp only [Session.finish, Session.outstanding, List.length_append, List.length_singleton,
        hposted] at this ⊢
      omega
    · rw [hops, hse, hcount rfl]
      exact h.placed
  | @taken s' i k t c _ _ hc hse hops =>
    have hcompleted := List.length_eraseIdx_of_lt (List.getElem?_eq_some_iff.mp hc).1
    have hpos := (List.getElem?_eq_some_iff.mp hc).1
    have htrefs := hops.tally_eq Op.refs
    have htplaced := hops.tally_eq Op.placed
    have htsettles := hops.tally_eq Op.settles
    obtain ⟨hplaced, hsettles⟩ := c.placed_op
    simp only [tally_nil, tally_cons, Completion.refs_op, hplaced, hsettles]
      at htrefs htplaced htsettles
    constructor
    · rw [hse]
      have := h.ioCount
      simp only [Session.take, Session.outstanding, hcompleted] at this ⊢
      omega
    · have hzero : (s'.session sid).unreferenced = (s.session sid).unreferenced := by rw [hse]; rfl
      have := h.placed
      rw [hzero, hcount rfl]
      omega
  | reconnecting _ _ _ _ hse hops => exact h.enter hops rfl rfl hse (hcount rfl)
  | @executed s' i t op o ok hi hsid hop ho hse hids hops =>
    have hx := execOp_cases ho
    have hmem : op ∈ s.ops sid := hops.mem_old List.mem_cons_self
    have hrun : s.running sid (.exec i ok) = some (op, ok) := running_eq hi hsid hop
    have hb := Op.balanced_of_running hbal hrun
    have hrefs := h.refs_le hmem
    have hexec := hx.refs hb hrefs
    have hplaced := hx.placed hb hrefs h.ioCount_nonneg
    have hlist := hx.count fun hpop => by
      have hrole : op.role = .reconnecter := by rw [hpop]; rfl
      exact hsid ▸ hst.front t (List.mem_of_getElem? hi) op hop hrole
    have htrefs := hops.tally_eq Op.refs
    have htplaced := hops.tally_eq Op.placed
    have htsettles := hops.tally_eq Op.settles
    simp only [tally_nil, tally_cons] at htrefs htplaced htsettles
    constructor
    · rw [hse]
      have := h.ioCount
      omega
    · rw [hse, hids]
      have := h.placed
      omega

/-! ## One `Reconnecter` -/

/-- What the threads at a session add up to, thread by thread. -/
theorem tally_ops (f : Op → ℕ) (sid : ℕ) (s : State) : tally f (s.ops sid) =
    tally (fun t => if t.session = sid then t.op.elim 0 f else 0) s.threads := by
  unfold State.ops
  induction s.threads with
  | nil => rfl
  | cons t l ih =>
    rw [tally_cons, ← ih, List.filterMap_cons]
    split
    · rename_i hnone
      split
      · rename_i hsid
        rw [if_pos hsid] at hnone
        rw [hnone]
        exact (Nat.zero_add _).symm
      · exact (Nat.zero_add _).symm
    · rename_i op hsome
      split at hsome
      · rename_i hsid
        rw [if_pos hsid, hsome]
        rfl
      · cases hsome

/-- `Reconnecter` is at one operation at most. -/
theorem Staffed.reconnects_le_one (h : Staffed cfg s) (sid : ℕ) :
    tally Op.reconnects (s.ops sid) ≤ 1 := by
  rw [tally_ops]
  have hrole : ∀ t ∈ s.threads, 0 < (if t.session = sid then t.op.elim 0 Op.reconnects else 0) →
      t.role = .reconnecter := by
    intro t ht hpos
    split at hpos
    · cases hop : t.op with
      | none => simp [hop] at hpos
      | some op =>
        rw [hop] at hpos
        simp only [Option.elim_some, Op.reconnects] at hpos
        split at hpos
        · rename_i hrole
          exact (h.role t ht op hop).symm.trans hrole
        · exact absurd hpos (lt_irrefl 0)
    · exact absurd hpos (lt_irrefl 0)
  refine tally_le_one (fun t _ => ?_) (List.pairwise_iff_getElem.mpr fun i j hi hj hlt hpos => ?_)
  · split
    · cases t.op with
      | none => exact Nat.zero_le _
      | some op =>
        simp only [Option.elim_some, Op.reconnects]
        split <;> omega
    · exact Nat.zero_le _
  · by_contra hne
    have hij := h.reconnecter i j _ _ (List.getElem?_eq_getElem hi) (List.getElem?_eq_getElem hj)
      (hrole _ (List.getElem_mem hi) hpos) (hrole _ (List.getElem_mem hj) (Nat.pos_of_ne_zero hne))
    omega

theorem settles_le_reconnects (op : Op) : op.settles ≤ op.reconnects := by
  have hcaller : ∀ c : Caller, c.settles ≤ if c.role = .reconnecter then 1 else 0 := by
    intro c
    cases c <;> decide
  cases op <;> first | exact hcaller _ | exact Nat.zero_le _ | exact le_rfl

/-- Before `Reconnecter` has made the reference nobody else stands for the session. -/
theorem Staffed.settles_eq_zero (h : Staffed cfg s) (hop : op ∈ s.ops sid)
    (hrole : op.role = .reconnecter) (hbefore : op.settles = 0) :
    tally Op.settles (s.ops sid) = 0 := by
  obtain ⟨i, hi⟩ := List.mem_iff_getElem?.mp hop
  have hone : op.reconnects = 1 := if_pos hrole
  have := tally_add_le_tally (n := 1) (fun op _ => settles_le_reconnects op) hi (by omega)
  have := h.reconnects_le_one sid
  omega

/-- And its id stays in the list until it is popped. -/
theorem Staffed.count_pos (h : Staffed cfg s) (hop : op ∈ s.ops sid)
    (hrole : op.role = .reconnecter) : 0 < s.reconnectIdList.count sid := by
  obtain ⟨t, ht, rfl, htop⟩ := mem_ops.mp hop
  exact List.count_pos_iff.mpr (List.mem_of_head? (h.front t ht op htop hrole))

/-- **Nobody refers to a session that `Reconnecter` is about to connect.** -/
theorem Referenced.ioCount_eq_zero (h : Referenced sid s) (hst : Staffed cfg s)
    (hop : op ∈ s.ops sid) (hrole : op.role = .reconnecter) (hbefore : op.settles = 0) :
    (s.session sid).ioCount = 0 := by
  have hplaced := h.placed
  rw [hst.settles_eq_zero hop hrole hbefore] at hplaced
  have := hst.count_pos hop hrole
  by_contra hne
  rw [Session.unreferenced, if_neg hne] at hplaced
  omega

end MultiLanClient

end DdingGameServer
