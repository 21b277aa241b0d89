import DdingGameServer.Common.History
import DdingGameServer.MultiLanClient.References
/-!
# MultiLanClient — a connection is released once

Where the account of `References` is kept, `ReleaseSession` is entered from the last reference
only, so that no overlapped operation is left, and not again before the next connection makes a
reference. The list can still hold an id twice: `Reconnecter` leaves the id at the front until it
is done, and a connection that is lost by then puts the id behind it. A run without these three
steps is free of the rest.
-/

namespace DdingGameServer

namespace MultiLanClient

variable {cfg : Config} {s s' : State} {e : Event} {sid : ℕ} {op op' : Op} {ok : Bool}
  {se : Session} {ids : List ℕ} {o : Outcome} {c : Caller} {r : PostRetval} {n : ℕ}

/-! ## What is counted, and what is assumed -/

/-- 1 where a thread has just called `ReleaseSession`. -/
def Op.enters : Op → ℕ
  | .releaseSession _ => 1
  | _ => 0

/-- `Start` connects the session `sid`. -/
def State.establishes (sid : ℕ) (s : State) : Event → Bool
  | .startSession _ => s.sessionIdGenerator = sid
  | _ => false

/-- The calls of `ReleaseSession` since the connection of the session `sid` was established. -/
def releasesAfter (cfg : Config) (sid n : ℕ) (s : State) (e : Event) : ℕ :=
  match s.outcome cfg sid e with
  | some (op, o) => if op = .connect then 0 else n + tally Op.enters o.next.toList
  | none => if s.establishes sid e = true then 0 else n

/-- The account of the session is kept, and its id is put on the list only when `Reconnecter` is
done with it. -/
def releasesApart (cfg : Config) (sid : ℕ) (s : State) (e : Event) : Bool :=
  balanced cfg sid s e &&
    match s.running sid e with
    | some (.pushReconnect _, _) => tally Op.settles (s.ops sid) = 0
    | _ => true

/-- **A connection is released once and only when idle.** -/
structure ReleasedOnce (sid : ℕ) (s : State) (releases : ℕ) : Prop where
  once : releases ≤ 1
  /-- No overlapped operation is outstanding while a thread is in `ReleaseSession`. -/
  idle : ∀ op ∈ s.ops sid, 0 < op.releases → (s.session sid).outstanding = 0
  ioCount : 0 ≤ (s.session sid).ioCount
  list : s.reconnectIdList.count sid ≤ 1

instance (sid : ℕ) (s : State) (releases : ℕ) : Decidable (ReleasedOnce sid s releases) :=
  decidable_of_iff (releases ≤ 1 ∧
      (∀ op ∈ s.ops sid, 0 < op.releases → (s.session sid).outstanding = 0) ∧
      0 ≤ (s.session sid).ioCount ∧ s.reconnectIdList.count sid ≤ 1)
    ⟨fun h => ⟨h.1, h.2.1, h.2.2.1, h.2.2.2⟩, fun h => ⟨h.once, h.idle, h.ioCount, h.list⟩⟩

/-! ## One place for every unreferenced session -/

/-- `Reconnecter` settles a session that is still in the list. -/
theorem Staffed.settles_le_count (h : Staffed cfg s) (sid : ℕ) :
    tally Op.settles (s.ops sid) ≤ s.reconnectIdList.count sid := by
  rcases Nat.eq_zero_or_pos (tally Op.settles (s.ops sid)) with hzero | hpos
  · omega
  · obtain ⟨op, hop, hsettles⟩ := tally_pos.mp hpos
    have hrole : op.role = .reconnecter := by
      have := settles_le_reconnects op
      by_contra hne
      rw [Op.reconnects, if_neg hne] at this
      omega
    have := h.count_pos hop hrole
    have := h.reconnects_le_one sid
    have := tally_le_tally fun op (_ : op ∈ s.ops sid) => settles_le_reconnects op
    omega

/-- **Nobody refers to a session that a thread releases or that `Start` is about to count.** -/
theorem Referenced.placed_le (h : Referenced sid s) (hst : Staffed cfg s) :
    tally Op.placed (s.ops sid) ≤ (s.session sid).unreferenced := by
  have := h.placed
  have := hst.settles_le_count sid
  omega

theorem unreferenced_le_one : se.unreferenced ≤ 1 := by
  unfold Session.unreferenced
  split <;> omega

theorem ioCount_of_unreferenced (h : 0 < se.unreferenced) : se.ioCount = 0 := by
  by_contra hne
  rw [Session.unreferenced, if_neg hne] at h
  exact absurd h (lt_irrefl 0)

theorem Referenced.ioCount_of_placed (h : Referenced sid s) (hst : Staffed cfg s)
    (hop : op ∈ s.ops sid) (hpos : 0 < op.placed) : (s.session sid).ioCount = 0 := by
  have hle : op.placed ≤ tally Op.placed (s.ops sid) := le_tally_of_mem hop
  have := h.placed_le hst
  exact ioCount_of_unreferenced (by omega)

/-- **A release finds the kernel idle.** -/
theorem Referenced.outstanding_of_releases (h : Referenced sid s) (hst : Staffed cfg s)
    (hop : op ∈ s.ops sid) (hpos : 0 < op.releases) : (s.session sid).outstanding = 0 := by
  have hzero := h.ioCount_of_placed hst hop (Nat.lt_of_lt_of_le hpos (Nat.le_add_right _ _))
  have := h.ioCount
  omega

/-- `RecvPost` for a new connection, before it has made the first reference. -/
def Op.connects : Op → Bool
  | .recvPost c | .countRecv c => c ≠ .worker
  | _ => false

theorem Referenced.ioCount_of_connects (h : Referenced sid s) (hst : Staffed cfg s)
    (hop : op ∈ s.ops sid) (hconnects : op.connects = true) : (s.session sid).ioCount = 0 := by
  have hcaller : ∀ c : Caller, c ≠ .worker → c = .reconnecter ∨ c.starts = 1 := by
    intro c
    cases c <;> simp [Caller.starts]
  cases op with
  | recvPost c | countRecv c =>
    simp only [Op.connects, ne_eq, decide_not, Bool.not_eq_true', decide_eq_false_iff_not]
      at hconnects
    rcases hcaller c hconnects with rfl | hstarts
    · exact h.ioCount_eq_zero hst hop rfl rfl
    · exact h.ioCount_of_placed hst hop (by simp [Op.placed, Op.releases, Op.starts, hstarts])
  | _ => cases hconnects

/-! ## One operation -/

@[simp] theorem enters_resume : tally Op.enters (c.resume r).toList = 0 := by
  cases c <;> cases r <;> rfl

/-- `ReleaseSession` is called with the last reference given back. -/
theorem Exec.enters (h : Exec cfg ok sid se ids op o) (hpos : 0 < tally Op.enters o.next.toList) :
    tally Op.enters o.next.toList = 1 ∧ se.ioCount = 1 ∧ o.session.ioCount = 0 := by
  have hdec : ∀ {c : Caller} {next : Option Op}, tally Op.enters next.toList = 0 →
      0 < tally Op.enters (decrement se ids c next).next.toList →
      tally Op.enters (decrement se ids c next).next.toList = 1 ∧ se.ioCount = 1 ∧
        (decrement se ids c next).session.ioCount = 0 := by
    intro c next hnext hpos
    rw [tally_decrement, hnext] at hpos ⊢
    split at hpos
    · rename_i hone
      rw [if_pos hone]
      exact ⟨rfl, hone, by simp only [decrement]; omega⟩
    · exact absurd hpos (lt_irrefl 0)
  cases h with
  | casFailed c | recheckEmpty c | recvPosted c | pushed c =>
    rw [enters_resume] at hpos
    exact absurd hpos (lt_irrefl 0)
  | sendFailed c | ringFull c | recvFailed c => exact hdec enters_resume hpos
  | workerEnded => exact hdec rfl hpos
  | socketClosed c =>
    dsimp only at hpos
    split at hpos
    · exact absurd hpos (lt_irrefl 0)
    · rw [enters_resume] at hpos
      exact absurd hpos (lt_irrefl 0)
  | _ => exact absurd hpos (lt_irrefl 0)

/-- A session nobody refers to is referred to again by a new connection only. -/
theorem Exec.raises (h : Exec cfg ok sid se ids op o) (hbal : op.balanced cfg se = true)
    (hrefs : (op.refs : ℤ) ≤ se.ioCount) (hzero : se.ioCount = 0)
    (hpos : 0 < o.session.ioCount) : op.connects = true := by
  cases h with
  | sendCounted c =>
    simp only [Op.balanced, decide_eq_true_eq] at hbal
    omega
  | recvCounted c =>
    cases c with
    | worker =>
      simp only [Op.refs, Caller.refs] at hrefs
      omega
    | _ => rfl
  | sendFailed | ringFull | recvFailed | workerEnded =>
    simp only [decrement] at hpos
    omega
  | _ => exact absurd hzero hpos.ne'

/-- `RecvPost` for a new connection is called behind `connect`. -/
theorem Exec.connects_next (h : Exec cfg ok sid se ids op o) (hnext : o.next = some op')
    (hconnects : op'.connects = true) : op = .connect ∨ op.connects = true := by
  have hresume : ∀ {c : Caller} {r : PostRetval}, c.resume r = some op' → False := by
    intro c r hr
    cases c <;> cases r <;> simp only [Caller.resume, Option.some.injEq, reduceCtorEq] at hr <;>
      subst hr <;> cases hconnects
  have hdec : ∀ {c : Caller} {next : Option Op}, (next = some op' → False) →
      (decrement se ids c next).next = some op' → False := by
    intro c next hno heq
    rcases decrement_next se ids c next with h | h
    · rw [h] at heq
      cases heq
      cases hconnects
    · exact hno (h.symm.trans heq)
  cases h with
  | casFailed c | recheckEmpty c | recvPosted c | pushed c => exact (hresume hnext).elim
  | sendFailed c | ringFull c | recvFailed c => exact (hdec hresume hnext).elim
  | workerEnded => exact (hdec (by simp) hnext).elim
  | socketClosed c =>
    dsimp only at hnext
    split at hnext
    · cases hnext
      cases hconnects
    · exact (hresume hnext).elim
  | connected => exact .inl rfl
  | ringOpen c =>
    cases hnext
    exact .inr hconnects
  | popped => cases hnext
  | _ => cases hnext; cases hconnects

/-! ## The invariant -/

/-- **What holds of a session and the count of its releases.** -/
structure Apart (sid : ℕ) (s : State) (releases : ℕ) : Prop where
  referenced : Referenced sid s
  list : s.reconnectIdList.count sid ≤ 1
  once : releases ≤ 1
  /-- A connection that is referred to has not been released. -/
  unreleased : 0 < (s.session sid).ioCount → releases = 0
  /-- Neither has one that is just being set up. -/
  connecting : ∀ op ∈ s.ops sid, op.connects = true → releases = 0

theorem apart_initial (senders : ℕ) : Apart sid (initialState cfg senders) 0 :=
  ⟨referenced_initial senders, Nat.zero_le _, Nat.zero_le _, fun _ => rfl, fun _ _ _ => rfl⟩

theorem balanced_of_releasesApart (h : releasesApart cfg sid s e = true) :
    balanced cfg sid s e = true := by
  rw [releasesApart, Bool.and_eq_true] at h
  exact h.1

theorem releasesAfter_of_outcome (h : s.outcome cfg sid e = some (op, o)) :
    releasesAfter cfg sid n s e =
      if op = .connect then 0 else n + tally Op.enters o.next.toList := by
  simp only [releasesAfter, h]

/-- The ids of a session: one more only by a `ReleaseSession` that `Reconnecter` does not
overlap. -/
theorem Apart.list_step (h : Apart sid s n) (hst : Staffed cfg s)
    (hC : releasesApart cfg sid s e = true) (hs : Step cfg s e s') :
    s'.reconnectIdList.count sid ≤ 1 := by
  have hlist := h.list
  cases hout : s.outcome cfg sid e with
  | none => exact (hs.count_of_other hst hout).trans_le hlist
  | some x =>
    obtain ⟨op, o⟩ := x
    cases hs.alters sid with
    | @executed s' i t op' o' ok hi hsid hop ho hse hids hops =>
      have hrun : s.running sid (.exec i ok) = some (op', ok) := running_eq hi hsid hop
      have hx := execOp_cases ho
      have hmem : op' ∈ s.ops sid := hops.mem_old List.mem_cons_self
      have hcount := hx.count fun hpop => by
        have hrole : op'.role = .reconnecter := by rw [hpop]; rfl
        exact hsid ▸ hst.front t (List.mem_of_getElem? hi) op' hop hrole
      rw [hids]
      cases op' with
      | pushReconnect c =>
        simp only [releasesApart, hrun, Bool.and_eq_true, decide_eq_true_eq] at hC
        have hplaced := h.referenced.placed
        have : 1 ≤ tally Op.placed (s.ops sid) := le_tally_of_mem (f := Op.placed) hmem
        have : (s.session sid).unreferenced ≤ 1 := unreferenced_le_one
        simp only [Op.pops, Op.pushes] at hcount
        omega
      | _ =>
        simp only [Op.pushes] at hcount
        omega
    | kept _ _ hcrash => cases (outcome_of_crash hcrash).symm.trans hout
    | _ => cases hout

theorem Apart.step (h : Apart sid s n) (hst : Staffed cfg s)
    (hC : releasesApart cfg sid s e = true) (hs : Step cfg s e s') :
    Apart sid s' (releasesAfter cfg sid n s e) := by
  have hbal := balanced_of_releasesApart hC
  have href := h.referenced.step hst hbal hs
  have hlist := h.list_step hst hC hs
  -- a step on other sessions, or one that only brings a thread here
  have hsame : ∀ {n' : ℕ}, n' = n → (s'.session sid).ioCount = (s.session sid).ioCount →
      (∀ op ∈ s'.ops sid, op.connects = true → op ∈ s.ops sid) → Apart sid s' n' := by
    rintro _ rfl hcount hops
    exact ⟨href, hlist, h.once, fun hpos => h.unreleased (hcount ▸ hpos),
      fun op hop hconnects => h.connecting op (hops op hop hconnects) hconnects⟩
  have hadd : ∀ {op' : Op}, Replaces [] [op'] (s.ops sid) (s'.ops sid) → op'.connects = false →
      ∀ op ∈ s'.ops sid, op.connects = true → op ∈ s.ops sid := by
    intro op' hops hno op hop hconnects
    rcases hops.mem Op.enters hop with hnew | ⟨hold, -⟩
    · rw [List.mem_singleton.mp hnew, hno] at hconnects
      cases hconnects
    · exact hold
  cases hs.alters sid with
  | kept hse hops hcrash =>
    simp only [releasesAfter, outcome_of_crash hcrash]
    split
    · exact ⟨href, hlist, Nat.zero_le _, fun _ => rfl, fun _ _ _ => rfl⟩
    · exact hsame rfl (by rw [hse]) fun op hop _ => hops ▸ hop
  | @started s' i hid hse hops =>
    have hzero : releasesAfter cfg sid n s (.startSession i) = 0 :=
      if_pos (decide_eq_true hid.symm)
    rw [hzero]
    exact ⟨href, hlist, Nat.zero_le _, fun _ => rfl, fun _ _ _ => rfl⟩
  | sent _ _ _ _ _ hse _ hops => exact hsame rfl (by rw [hse]) (hadd hops rfl)
  | finished _ hse hops => exact hsame rfl (by rw [hse]; rfl) fun op hop _ => hops ▸ hop
  | @taken s' i k t c _ _ hc hse hops =>
    refine hsame rfl (by rw [hse]; rfl) (hadd hops ?_)
    cases c with
    | recv data =>
      simp only [Completion.op]
      split <;> rfl
    | send b => rfl
  | reconnecting _ _ _ _ hse hops => exact hsame rfl (by rw [hse]) (hadd hops rfl)
  | @executed s' i t op o ok hi hsid hop ho hse hids hops =>
    have hx := execOp_cases ho
    have hmem : op ∈ s.ops sid := hops.mem_old List.mem_cons_self
    have hrun : s.running sid (.exec i ok) = some (op, ok) := running_eq hi hsid hop
    have hb := Op.balanced_of_running hbal hrun
    rw [releasesAfter_of_outcome (outcome_eq hrun ho)]
    by_cases hconnect : op = .connect
    · rw [if_pos hconnect]
      exact ⟨href, hlist, Nat.zero_le _, fun _ => rfl, fun _ _ _ => rfl⟩
    rw [if_neg hconnect]
    rcases Nat.eq_zero_or_pos (tally Op.enters o.next.toList) with hno | hpos
    · -- no release begins
      rw [hno, Nat.add_zero]
      refine ⟨href, hlist, h.once, fun hpos => ?_, fun op' hop' hconnects => ?_⟩
      · rcases (h.referenced.ioCount_nonneg).eq_or_lt with hzero | hlt
        · exact h.connecting op hmem
            (hx.raises hb (h.referenced.refs_le hmem) hzero.symm (hse ▸ hpos))
        · exact h.unreleased hlt
      · rcases hops.mem Op.enters hop' with hnew | ⟨hold, -⟩
        · have hold :=
            (hx.connects_next (Option.mem_toList.mp hnew) hconnects).resolve_left hconnect
          exact h.connecting op hmem hold
        · exact h.connecting op' hold hconnects
    · -- the last reference is given back: the connection was not released before
      obtain ⟨hone, hlast, hzero⟩ := hx.enters hpos
      have hn := h.unreleased (by omega)
      rw [hone, hn]
      refine ⟨href, hlist, le_rfl, fun hpos => ?_, fun op' hop' hconnects => ?_⟩
      · rw [hse, hzero] at hpos
        exact absurd hpos (lt_irrefl 0)
      · rcases hops.mem Op.enters hop' with hnew | ⟨hold, -⟩
        · have hold :=
            (hx.connects_next (Option.mem_toList.mp hnew) hconnects).resolve_left hconnect
          have := h.referenced.ioCount_of_connects hst hmem hold
          omega
        · have := h.referenced.ioCount_of_connects hst hold hconnects
          omega

theorem Apart.releasedOnce (h : Apart sid s n) (hst : Staffed cfg s) : ReleasedOnce sid s n :=
  ⟨h.once, fun _ hop hpos => h.referenced.outstanding_of_releases hst hop hpos,
    h.referenced.ioCount_nonneg, h.list⟩

/-- **A connection is released once and only when idle**, in every state of a run whose steps keep
the account of the session and put its id on the list only when `Reconnecter` is done with it. -/
theorem releasedOnce_of_releasesApart {x : State × ℕ}
    (h : ((system cfg).recorded 0 (releasesAfter cfg sid)).ReachableUnder
      (fun x e => releasesApart cfg sid x.1 e = true) x) : ReleasedOnce sid x.1 x.2 := by
  have hapart : Apart sid x.1 x.2 := by
    refine System.ReachableUnder.recorded_invariant (P := Apart sid) ?_
      (fun s n e s' hr hP hC hs => hP.step (staffed_of_reachable hr) hC (step_cases hs)) h
    rintro s ⟨senders, rfl⟩
    exact apart_initial senders
  exact hapart.releasedOnce (staffed_of_reachable h.of_recorded)

/-- The server closes the connection: it is released once, and reconnected. -/
theorem releasedOnce_reconnected : ∃ x : State × ℕ,
    (x.2 = 0 ∧ (x.1.session 0).connected = true ∧ x.1.reconnectIdList = []) ∧
      ReleasedOnce 0 x.1 x.2 := by
  obtain ⟨x, hx, hf⟩ := System.exists_reachableUnder
    ((system oneChannel).recorded 0 (releasesAfter oneChannel 0))
    (lostRun ++ .reconnect 1 :: execs 1 6) (s := (initialState oneChannel 2, 0))
    (c := fun x e => releasesApart oneChannel 0 x.1 e)
    (f := fun x => decide
      (x.2 = 0 ∧ (x.1.session 0).connected = true ∧ x.1.reconnectIdList = []))
    ⟨⟨2, rfl⟩, rfl⟩ (by decide +kernel)
  exact ⟨x, of_decide_eq_true hf, releasedOnce_of_releasesApart hx⟩

/-- **A packet sent while the channel is disconnected releases it again**: `SendPost` raises the
count from 0, `WSASend` fails, and the decrement finds the last reference once more. -/
theorem not_releasedOnce_sendWhileLost : ∃ x : State × ℕ,
    ((system oneChannel).recorded 0 (releasesAfter oneChannel 0)).Reachable x ∧
      ¬ ReleasedOnce 0 x.1 x.2 := by
  obtain ⟨x, hx, hf⟩ := System.exists_reachable
    ((system oneChannel).recorded 0 (releasesAfter oneChannel 0))
    (lostRun ++ .sendPacket 3 (some 7) :: execs 3 16) (s := (initialState oneChannel 2, 0))
    (f := fun x => decide (¬ ReleasedOnce 0 x.1 x.2)) ⟨⟨2, rfl⟩, rfl⟩ (by decide +kernel)
  exact ⟨x, hx, of_decide_eq_true hf⟩

end MultiLanClient

end DdingGameServer
