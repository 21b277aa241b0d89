import DdingGameServer.Common.History
import DdingGameServer.MultiLanClient.Frees
/-!
# MultiLanClient — send buffers are freed once

The handlers of completions and `ReleaseSession` agree on what to free as long as nobody works on
the store or the queue while `ReleaseSession` frees. But the store, with its count, is left to the
next connection as it is, so that a second `ReleaseSession` after a failed `WSASend` frees it
again. In a run with neither, every packet is freed at most once, and every one that was enqueued
is freed when `ReleaseSession` is through.
-/

namespace DdingGameServer

namespace MultiLanClient

variable {cfg : Config} {s s' : State} {e : Event} {sid i i' : ℕ} {op op' : Op} {ok : Bool}
  {se se' : Session} {ids : List ℕ} {o : Outcome} {packet : Buffer} {b b' : List Buffer}
  {log : FreeLog}

/-! ## What is assumed, and what follows -/

/-- **What keeps the frees apart**: while a `ReleaseSession` frees, no other does, no thread works
on the store or takes from the queue, and no batch is at the kernel; and the session is released
at most once after a `WSASend` has failed. -/
def freesApart (sid : ℕ) (s : State) (log : FreeLog) (e : Event) : Bool :=
  decide (tally Op.frees (s.ops sid) = 0 ∨ (s.session sid).sends + tally Op.frees (s.ops sid) +
    tally Op.carries (s.ops sid) ≤ 1) &&
  match s.running sid e with
  | some (.releaseSession _, _) => !log.releasedSince
  | _ => true

/-- **Freed exactly once.** -/
structure FreedOnce (log : FreeLog) : Prop where
  atMostOnce : ∀ packet ∈ log.enqueued, log.freed.count packet ≤ 1
  exactlyOnce : ∀ packet ∈ log.released, log.freed.count packet = 1

instance (log : FreeLog) : Decidable (FreedOnce log) :=
  decidable_of_iff ((∀ packet ∈ log.enqueued, log.freed.count packet ≤ 1) ∧
    ∀ packet ∈ log.released, log.freed.count packet = 1)
    ⟨fun h => ⟨h.1, h.2⟩, fun h => ⟨h.atMostOnce, h.exactlyOnce⟩⟩

/-! ## The invariant -/

/-- **What holds in all runs**: the packets are in one place of one session, and the token is out
while somebody holds it or a `WSASend` has lost it. -/
structure Tracked (sid : ℕ) (s : State) (log : FreeLog) : Prop where
  housed : Housed sid s log.enqueued log.freed
  once : Once sid s log.enqueued
  tokens : s.tokens sid + log.sendFailed.toNat = (s.session sid).ioMode.taken

@[simp] theorem mark_enqueued : (log.mark op).enqueued = log.enqueued := by
  unfold FreeLog.mark
  split <;> rfl

@[simp] theorem mark_freed : (log.mark op).freed = log.freed := by
  unfold FreeLog.mark
  split <;> rfl

@[simp] theorem mark_sendFailed : (log.mark op).sendFailed = log.sendFailed := by
  unfold FreeLog.mark
  split <;> rfl

theorem record_enqueues :
    (log.record cfg sid s e).enqueued = log.enqueued ++ s.enqueues cfg sid e := by
  unfold FreeLog.record
  split
  · rw [mark_enqueued]
    rfl
  · rfl

theorem record_freed : (log.record cfg sid s e).freed = log.freed ++ s.frees cfg e := by
  unfold FreeLog.record
  split
  · rw [mark_freed]
    rfl
  · rfl

theorem record_sendFailed :
    (log.record cfg sid s e).sendFailed = (log.sendFailed || sendFails sid s e) := by
  unfold FreeLog.record
  split
  · rw [mark_sendFailed]
    rfl
  · rfl

theorem tracked_initial (senders : ℕ) : Tracked sid (initialState cfg senders) .empty := by
  refine ⟨housed_initial senders, once_initial senders, ?_⟩
  obtain ⟨hse, hops⟩ := (staffed_initial cfg senders).fresh sid (Nat.zero_le _)
  rw [State.tokens, hse, hops]
  rfl

theorem Tracked.step (h : Tracked sid s log) (hst : Staffed cfg s) (hs : Step cfg s e s') :
    Tracked sid s' (log.record cfg sid s e) := by
  refine ⟨?_, ?_, ?_⟩
  · rw [record_enqueues, record_freed]
    exact h.housed.step hs
  · rw [record_enqueues]
    exact h.housed.once_step h.once hs
  · have htokens := h.tokens
    have hle : s.tokens sid ≤ (s.session sid).ioMode.taken := by omega
    have hstep := hs.tokens hst hle
    have htaken := (s'.session sid).ioMode.taken_le_one
    rw [record_sendFailed]
    cases hf : log.sendFailed <;> cases hf' : sendFails sid s e <;>
      rw [hf] at htokens <;> rw [hf'] at hstep <;>
      simp only [Bool.toNat_false, Bool.toNat_true, Bool.or_false, Bool.or_true] at * <;> omega

/-- **What holds of the packets of a session** while the frees are kept apart: the store counts `b`,
`i` of which are freed. -/
structure Accounted (sid : ℕ) (s : State) (log : FreeLog) (b : List Buffer) (i : ℕ) : Prop where
  counts : (s.session sid).counts b i
  /-- A packet that was enqueued is freed, in the store, at a thread, or in the queue. -/
  conserved : ∀ packet, Mine sid s log.enqueued packet →
    log.freed.count packet + (b.drop i).count packet + tally (Op.takes packet) (s.ops sid) +
      (s.session sid).sendQ.count packet = log.enqueued.count packet
  holding : Carried sid (Holding (s.session sid) b i) (fun _ => i = 0) (b = []) s
  freeing : ∀ op ∈ s.ops sid, Freeing log (s.session sid) b i op
  /-- A batch whose `WSASend` failed is whole until `ReleaseSession` comes. -/
  unreleased : log.sendFailed = true → log.releasedSince = false → i = 0
  began : ∀ packet ∈ log.began, packet ∈ log.enqueued
  released : ∀ packet ∈ log.released, packet ∈ log.enqueued ∧ packet ∈ log.freed

theorem accounted_initial (senders : ℕ) :
    Accounted sid (initialState cfg senders) .empty [] 0 := by
  obtain ⟨hse, hops⟩ := (staffed_initial cfg senders).fresh sid (Nat.zero_le _)
  have hnone : ∀ op, op ∉ (initialState cfg senders).ops sid := by simp [hops]
  refine ⟨hse ▸ counts_nil rfl, fun packet _ => ?_, ⟨fun op hop => absurd hop (hnone op),
    fun _ _ => rfl, fun _ _ => rfl, fun _ => rfl⟩, fun op hop => absurd hop (hnone op),
    fun h => absurd h Bool.false_ne_true, fun _ hmem => absurd hmem List.not_mem_nil,
    fun _ hmem => absurd hmem List.not_mem_nil⟩
  rw [hops, hse]
  rfl

/-- A packet with a serial number of its own is nowhere yet. -/
theorem Accounted.fresh (h : Accounted sid s log b i) (ht : Tracked sid s log)
    (hserial : packet.serial = s.nextSerial) :
    log.freed.count packet + (b.drop i).count packet + tally (Op.takes packet) (s.ops sid) +
      (s.session sid).sendQ.count packet = log.enqueued.count packet := by
  have hkeeps : ¬ s.keeps sid packet := fun hk => (ht.housed.keeps_lt sid packet hk).ne hserial
  have hstores : ∀ {w : List Buffer}, (s.session sid).stores w → packet ∉ w := by
    intro w hw hmem
    obtain ⟨k, hk, heq⟩ := List.mem_iff_getElem.mp hmem
    exact hkeeps (.inr (.inl ⟨k, by rw [hw k hk, ← heq]; exact List.getElem?_eq_getElem hk⟩))
  have hfreed : log.freed.count packet = 0 :=
    List.count_eq_zero.mpr fun hmem => (ht.housed.freed_lt packet hmem).ne hserial
  have henq : log.enqueued.count packet = 0 :=
    List.count_eq_zero.mpr fun hmem => (ht.housed.enqueued_lt packet hmem).ne hserial
  have hlive : (b.drop i).count packet = 0 :=
    List.count_eq_zero.mpr fun hmem => hstores h.counts.stores (List.mem_of_mem_drop hmem)
  have hq : (s.session sid).sendQ.count packet = 0 :=
    List.count_eq_zero.mpr fun hmem => hkeeps (.inl hmem)
  have htakes : tally (Op.takes packet) (s.ops sid) = 0 := by
    refine tally_eq_zero.mpr fun op hop => List.count_eq_zero.mpr fun hmem => ?_
    cases op with
    | dequeue c n w => exact hstores (h.holding.ops _ hop Nat.one_pos).2.1 hmem
    | setBufferCount c w => exact hstores (h.holding.ops _ hop Nat.one_pos).2 hmem
    | _ => cases hmem
  omega

/-! ## Steps of others -/

/-- What a step leaves alone that neither holds the token nor frees. -/
structure Beside (cfg : Config) (sid : ℕ) (s : State) (e : Event) (s' : State) (log : FreeLog) :
    Prop where
  frees : log.Frees (log.record cfg sid s e) (s.frees cfg e)
  others : ∀ packet, Mine sid s log.enqueued packet → packet ∉ s.frees cfg e
  sendQ : (s'.session sid).sendQ = (s.session sid).sendQ ++ s.enqueues cfg sid e
  released : (log.record cfg sid s e).released = log.released
  takes : ∀ packet, tally (Op.takes packet) (s'.ops sid) = tally (Op.takes packet) (s.ops sid)
  ops : ∀ op ∈ s'.ops sid, op ∈ s.ops sid ∨
    ∀ b i, Freeing (log.record cfg sid s e) (s'.session sid) b i op

variable {new freed : List Buffer}

theorem Holding.congr (h : Holding se b i op)
    (hstore : se'.serializeBufStore = se.serializeBufStore)
    (hq : se.sendQ.length ≤ se'.sendQ.length) : Holding se' b i op := by
  have hstores : ∀ {w : List Buffer}, se.stores w → se'.stores w :=
    fun hw k hk => (congrFun hstore k).trans (hw k hk)
  cases op with
  | dequeue c n w =>
    obtain ⟨hb, hw, hlen, hsize⟩ := h
    exact ⟨hb, hstores hw, hlen, by omega⟩
  | setBufferCount c w => exact ⟨h.1, hstores h.2⟩
  | _ => exact h

/-- Packets that are enqueued behind do not matter to `ReleaseSession`. -/
theorem Freeing.congr (h : Freeing log se b i op) (hlog : log.Frees log' freed)
    (hq : se'.sendQ = se.sendQ ++ new) : Freeing log' se' b i op := by
  cases op with
  | readRestSize c n =>
    obtain ⟨hn, hi, hleft⟩ := h
    refine ⟨hn, hi, hleft.free hlog (fun _ => .inr) (fun x hx => .inr ?_)⟩
    rw [hq]
    exact List.mem_append_left _ hx
  | freeStored c n j rest =>
    obtain ⟨hn, hj, hrest, hleft⟩ := h
    refine ⟨hn, hj, ?_, hleft.free hlog (fun _ => .inr) (fun x hx => .inr ?_)⟩
    · rw [hq, List.length_append]
      omega
    · rwa [hq, List.take_append_of_le_length hrest]
  | freeQueued c rest deleteBuf =>
    obtain ⟨hi, hrest, hleft⟩ := h
    refine ⟨hi, ?_, hleft.free hlog (fun _ => .inr) (fun x hx => .inr ?_)⟩
    · rw [hq, List.length_append]
      omega
    · rwa [hq, List.take_append_of_le_length hrest]
  | _ => exact trivial

/-- What is counted of a packet after the step was counted before, or the packet is new. -/
theorem Accounted.conserved_before (h : Accounted sid s log b i) (ht : Tracked sid s log)
    (hs : Step cfg s e s') (hp : Mine sid s' (log.record cfg sid s e).enqueued packet) :
    log.freed.count packet + (b.drop i).count packet + tally (Op.takes packet) (s.ops sid) +
      (s.session sid).sendQ.count packet = log.enqueued.count packet := by
  rw [record_enqueues] at hp
  rcases hs.mine hp with hmine | hbrings
  · exact h.conserved packet hmine
  · exact h.fresh ht hbrings.serial

/-- **A step of somebody else** leaves the account as it was. -/
theorem Accounted.beside (h : Accounted sid s log b i) (ht : Tracked sid s log)
    (hst : Staffed cfg s) (hs : Step cfg s e s')
    (hother : ∀ op ok o, ¬ s.holderRuns cfg sid e op ok o) (hb : Beside cfg sid s e s' log) :
    Accounted sid s' (log.record cfg sid s e) b i := by
  obtain ⟨hcount, hstore⟩ := hs.store_of_other hst hother
  have hle : s.tokens sid ≤ (s.session sid).ioMode.taken := by
    have := ht.tokens
    omega
  have hq : (s.session sid).sendQ.length ≤ (s'.session sid).sendQ.length := by
    rw [hb.sendQ, List.length_append]
    omega
  refine ⟨h.counts.of_eq hcount hstore, fun packet hp => ?_, ?_, fun op hop => ?_,
    fun hfailed hsince => ?_, fun packet hp => ?_, fun packet hp => ?_⟩
  · have hbefore := h.conserved_before ht hs hp
    have hnot : (s.frees cfg e).count packet = 0 := List.count_eq_zero.mpr fun hmem => by
      rw [record_enqueues] at hp
      rcases hs.mine hp with hmine | hbrings
      · exact hb.others packet hmine hmem
      · obtain ⟨sid', hk, -⟩ := keeps_of_frees hmem
        exact (ht.housed.keeps_lt sid' packet hk).ne hbrings.serial
    rw [record_freed, record_enqueues, hb.takes, hb.sendQ, List.count_append, List.count_append,
      List.count_append]
    omega
  · refine h.holding.step hs hst hle (fun _ => ?_) (fun hb _ => hb) (fun _ hi => hi)
      (fun op ok o hh => absurd hh (hother op ok o))
    exact ⟨fun op _ _ hF => hF.congr hstore hq, fun _ _ => id, id⟩
  · rcases hb.ops op hop with hold | htrivial
    · exact (h.freeing op hold).congr hb.frees hb.sendQ
    · exact htrivial b i
  · exact h.unreleased (hb.frees.sendFailed ▸ hfailed) (hb.frees.releasedSince ▸ hsince)
  · rw [record_enqueues]
    exact List.mem_append_left _ (h.began packet (hb.frees.began ▸ hp))
  · obtain ⟨henq, hfreed⟩ := h.released packet (hb.released ▸ hp)
    rw [record_enqueues, record_freed]
    exact ⟨List.mem_append_left _ henq, List.mem_append_left _ hfreed⟩

/-- The record of a step in which no `WSASend` fails. -/
theorem note_frees (hfails : sendFails sid s e = false) :
    log.Frees (log.note cfg sid s e) (s.frees cfg e) :=
  ⟨rfl, rfl, by simp [FreeLog.note, hfails], rfl⟩

/-- A step without an operation on the session. -/
theorem Step.beside_of_none (hs : Step cfg s e s') (ht : Tracked sid s log)
    (hout : s.outcome cfg sid e = none) : Beside cfg sid s e s' log := by
  have hrecord : log.record cfg sid s e = log.note cfg sid s e := by rw [FreeLog.record, hout]
  have hfrees : log.Frees (log.record cfg sid s e) (s.frees cfg e) :=
    hrecord ▸ note_frees (sendFails_of_outcome hout)
  have hreleased : (log.record cfg sid s e).released = log.released := by
    rw [hrecord]
    rfl
  have hqueue : (s'.session sid).sendQ = (s.session sid).sendQ →
      (s'.session sid).sendQ = (s.session sid).sendQ ++ s.enqueues cfg sid e := fun hq => by
    rw [State.enqueues, hout, hq]
    exact (List.append_nil _).symm
  have hadd : ∀ {op' : Op}, Replaces [] [op'] (s.ops sid) (s'.ops sid) →
      (∀ packet, op'.takes packet = 0) → op'.frees = 0 →
      (s'.session sid).sendQ = (s.session sid).sendQ → Beside cfg sid s e s' log := by
    intro op' hops htakes hnone hq
    refine ⟨hfrees, fun packet hmine => ht.housed.not_mem_frees hmine hout, hqueue hq, hreleased,
      fun packet => ?_, fun op hop => ?_⟩
    · have := hops.tally_eq (Op.takes packet)
      simp only [tally_nil, tally_cons, htakes] at this
      exact this
    · refine (hops.mem Op.holds hop).symm.imp And.left fun hnew b i => ?_
      exact List.mem_singleton.mp hnew ▸ freeing_of_frees hnone
  have hsame : s'.ops sid = s.ops sid → (s'.session sid).sendQ = (s.session sid).sendQ →
      Beside cfg sid s e s' log := fun hops hq =>
    ⟨hfrees, fun packet hmine => ht.housed.not_mem_frees hmine hout, hqueue hq, hreleased,
      fun packet => by rw [hops], fun op hop => .inl (hops ▸ hop)⟩
  cases hs.alters sid with
  | kept hse hops => exact hsame hops (by rw [hse])
  | started _ hse hops => exact hadd hops (fun _ => rfl) rfl (by rw [hse]; rfl)
  | sent _ _ _ _ _ hse _ hops => exact hadd hops (fun _ => rfl) rfl (by rw [hse])
  | finished _ hse hops => exact hsame hops (by rw [hse]; rfl)
  | @taken s' i k t c _ _ _ hse hops =>
    have hop : (∀ packet, c.op.takes packet = 0) ∧ c.op.frees = 0 := by
      cases c with
      | recv data =>
        simp only [Completion.op]
        split <;> exact ⟨fun _ => rfl, rfl⟩
      | send b => exact ⟨fun _ => rfl, rfl⟩
    exact hadd hops hop.1 hop.2 (by rw [hse]; rfl)
  | reconnecting _ _ _ _ hse hops => exact hadd hops (fun _ => rfl) rfl (by rw [hse])
  | executed hi hsid hop ho =>
    cases hout.symm.trans (outcome_eq (running_eq hi hsid hop) ho)

/-! ## Steps on the session -/

/-- A step that executes an operation on the session. -/
structure Runs (cfg : Config) (sid : ℕ) (s : State) (e : Event) (s' : State) (log : FreeLog)
    (op : Op) (ok : Bool) (o : Outcome) : Prop where
  running : s.running sid e = some (op, ok)
  outcome : execOp cfg op ok sid (s.session sid) s.reconnectIdList = some o
  exec : Exec cfg ok sid (s.session sid) s.reconnectIdList op o
  session : s'.session sid = o.session
  ops : Replaces [op] o.next.toList (s.ops sid) (s'.ops sid)
  enqueues : s.enqueues cfg sid e = op.enqueued
  frees : s.frees cfg e = o.freed
  record : log.record cfg sid s e = (log.note cfg sid s e).mark op

theorem Step.runs (hs : Step cfg s e s') (log : FreeLog)
    (hout : s.outcome cfg sid e = some (op, o)) : ∃ ok, Runs cfg sid s e s' log op ok o := by
  cases hs.alters sid with
  | kept _ _ hcrash => cases (outcome_of_crash hcrash).symm.trans hout
  | @executed s' i t op' o' ok hi hsid hop ho hse hids hops =>
    have hrun : s.running sid (.exec i ok) = some (op', ok) := running_eq hi hsid hop
    obtain ⟨rfl, rfl⟩ := Prod.mk.inj (Option.some.inj ((outcome_eq hrun ho).symm.trans hout))
    refine ⟨ok, hrun, ho, execOp_cases ho, hse, hops, ?_, ?_, ?_⟩
    · rw [State.enqueues, hout]
      rfl
    · subst hsid
      simp [State.frees, hi, hout]
    · rw [FreeLog.record, hout]
  | _ => cases hout

theorem Runs.mem (h : Runs cfg sid s e s' log op ok o) : op ∈ s.ops sid :=
  h.ops.mem_old List.mem_cons_self

/-- Packets that are moved are counted as before. -/
theorem Accounted.conserved_step (h : Accounted sid s log b i) (ht : Tracked sid s log)
    (hs : Step cfg s e s') (hr : Runs cfg sid s e s' log op ok o)
    (hmoves : Conserves (s.session sid) op o (b.drop i) (b'.drop i'))
    (hp : Mine sid s' (log.record cfg sid s e).enqueued packet) :
    (log.record cfg sid s e).freed.count packet + (b'.drop i').count packet +
      tally (Op.takes packet) (s'.ops sid) + (s'.session sid).sendQ.count packet =
        (log.record cfg sid s e).enqueued.count packet := by
  have hbefore := h.conserved_before ht hs hp
  have hmoves := hmoves packet
  have htakes := hr.ops.tally_eq (Op.takes packet)
  simp only [tally_cons, tally_nil, Op.waits] at htakes hmoves
  rw [record_freed, record_enqueues, hr.session, hr.enqueues, hr.frees, List.count_append,
    List.count_append]
  omega

theorem mark_of_frees (h : op.frees = 0) : log.mark op = log := by
  cases op <;> first | rfl | exact absurd h Nat.one_ne_zero

theorem frees_of_holds (h : 0 < op.holds) : op.frees = 0 := by
  cases op <;> first | rfl | exact absurd h (lt_irrefl 0)

theorem takes_of_holds (h : op.holds = 0) : op.takes packet = 0 := by
  cases op <;> first | rfl | exact absurd h Nat.one_ne_zero

theorem Runs.sendFails (h : Runs cfg sid s e s' log op ok o) :
    MultiLanClient.sendFails sid s e = op.failsSend ok (s.session sid) := by
  simp only [MultiLanClient.sendFails, h.running]

theorem Runs.holderRuns (h : Runs cfg sid s e s' log op ok o) {op' : Op} {ok' : Bool}
    {o' : Outcome} (hh : s.holderRuns cfg sid e op' ok' o') : op' = op ∧ ok' = ok ∧ o' = o := by
  obtain ⟨hrun, -, ho⟩ := hh
  obtain ⟨rfl, rfl⟩ := Prod.mk.inj (Option.some.inj (hrun.symm.trans h.running))
  exact ⟨rfl, rfl, Option.some.inj (ho.symm.trans h.outcome)⟩

/-- An operation of neither kind. -/
theorem Runs.beside (hr : Runs cfg sid s e s' log op ok o) (hholds : op.holds = 0)
    (hfrees : op.frees = 0) : Beside cfg sid s e s' log := by
  obtain ⟨-, hfreed, hq⟩ := hr.exec.unhandled hholds hfrees
  have hfails : MultiLanClient.sendFails sid s e = false := by
    rw [hr.sendFails]
    cases op <;> first | rfl | exact absurd hholds Nat.one_ne_zero
  have hrecord := hr.record.trans (mark_of_frees hfrees)
  refine ⟨hrecord ▸ note_frees hfails, fun packet _ => ?_, ?_, by rw [hrecord]; rfl,
    fun packet => ?_, fun op' hop' => ?_⟩
  · rw [hr.frees, hfreed]
    exact List.not_mem_nil
  · rw [hr.session, hr.enqueues, hq]
  · have htakes := hr.ops.tally_eq (Op.takes packet)
    have hnext : tally (Op.takes packet) o.next.toList = 0 := by
      refine tally_eq_zero.mpr fun op' hop' => ?_
      rcases Nat.eq_zero_or_pos op'.holds with hzero | hpos
      · exact takes_of_holds hzero
      · obtain ⟨-, c, rfl⟩ := hr.exec.next_of_holds hholds (Option.mem_toList.mp hop') hpos
        rfl
    simp only [tally_cons, tally_nil, takes_of_holds hholds, hnext] at htakes
    exact htakes
  · refine (hr.ops.mem Op.holds hop').symm.imp And.left fun hnew b i => ?_
    exact hr.exec.freeing_next hfrees (Option.mem_toList.mp hnew)

/-- **A step of the holder.** -/
theorem Accounted.holder (h : Accounted sid s log b i) (ht : Tracked sid s log)
    (hst : Staffed cfg s) (hC : freesApart sid s log e = true) (hs : Step cfg s e s')
    (hr : Runs cfg sid s e s' log op ok o) (hpos : 0 < op.holds) :
    ∃ b' i', Accounted sid s' (log.record cfg sid s e) b' i' := by
  have htokens := ht.tokens
  have hle : s.tokens sid ≤ (s.session sid).ioMode.taken := by omega
  have hmode := mode_of_holds hle hr.mem hpos
  obtain ⟨b', i', hp⟩ :=
    hr.exec.passes hpos hmode h.counts (h.holding.ops op hr.mem hpos)
  have hrecord := hr.record.trans (mark_of_frees (frees_of_holds hpos))
  -- the holder has the token, so no `WSASend` has lost it
  have hfailed : log.sendFailed = false := by
    have hholds : op.holds ≤ tally Op.holds (s.ops sid) := le_tally_of_mem hr.mem
    rw [State.tokens, hmode] at htokens
    cases hf : log.sendFailed with
    | false => rfl
    | true =>
      rw [hf] at htokens
      simp only [Bool.toNat_true, IoMode.taken] at htokens
      omega
  refine ⟨b', i', hr.session ▸ hp.counts,
    fun packet hmine => h.conserved_step ht hs hr hp.conserves hmine, ?_, fun op' hop' => ?_,
    fun hsend _ => ?_, fun packet hmem => ?_, fun packet hmem => ?_⟩
  · refine h.holding.step hs hst hle (fun hother => ?_) (fun hb _ => hb) (fun _ hi => hi)
      (fun op' ok' o' hh _ => ?_)
    · exact absurd ⟨hr.running, hpos, hr.outcome⟩ (hother op ok o)
    · obtain ⟨rfl, rfl, rfl⟩ := hr.holderRuns hh
      rw [hr.session]
      exact ⟨hp.next, hp.kernel, hp.idle⟩
  · rcases hr.ops.mem Op.holds hop' with hnew | ⟨hold, -⟩
    · exact hr.exec.freeing_next (frees_of_holds hpos) (Option.mem_toList.mp hnew)
    · rcases Nat.eq_zero_or_pos op.carries with hzero | hcarries
      · obtain ⟨rfl, rfl, hq⟩ := hp.same hzero
        have hfails : MultiLanClient.sendFails sid s e = false := by
          rw [hr.sendFails]
          cases op <;> first | rfl | exact absurd hzero Nat.one_ne_zero
        rw [hrecord]
        have hqueue : (s'.session sid).sendQ = (s.session sid).sendQ ++ [] := by
          rw [hr.session, hq, List.append_nil]
        exact (h.freeing op' hold).congr (note_frees hfails) hqueue
      · -- nobody frees while packets are carried
        have : op.carries ≤ tally Op.carries (s.ops sid) := le_tally_of_mem hr.mem
        have : op'.frees ≤ tally Op.frees (s.ops sid) := le_tally_of_mem hold
        simp only [freesApart, Bool.and_eq_true, decide_eq_true_eq] at hC
        exact freeing_of_frees (by omega)
  · rw [record_sendFailed, hfailed, Bool.false_or, hr.sendFails] at hsend
    exact hp.failed hsend
  · rw [hrecord] at hmem
    rw [record_enqueues]
    exact List.mem_append_left _ (h.began packet hmem)
  · rw [hrecord] at hmem
    obtain ⟨henq, hfreed⟩ := h.released packet hmem
    rw [record_enqueues, record_freed]
    exact ⟨List.mem_append_left _ henq, List.mem_append_left _ hfreed⟩

/-- A holder that carries nothing has left an empty store. -/
theorem holds_of_carries (h : op.carries = 0) (hpos : 0 < op.holds) (hF : Holding se b i op) :
    b = [] ∧ ∀ se' b' i', b' = [] → Holding se' b' i' op := by
  cases op with
  | getRestSize | resetMode | resetSending => exact ⟨hF, fun _ _ _ h => h⟩
  | _ => first | exact absurd h Nat.one_ne_zero | exact absurd hpos (lt_irrefl 0)

theorem takes_of_carries (h : op.carries = 0) : op.takes packet = 0 := by
  cases op <;> first | rfl | exact absurd h Nat.one_ne_zero

/-- What the condition says while a `ReleaseSession` frees. -/
structure Alone (sid : ℕ) (s : State) : Prop where
  frees : tally Op.frees (s.ops sid) = 1
  sends : (s.session sid).sends = 0
  carries : ∀ op ∈ s.ops sid, op.carries = 0

theorem alone_of_freesApart (hC : freesApart sid s log e = true) (hop : op ∈ s.ops sid)
    (hpos : 0 < op.frees) : Alone sid s := by
  have hle : op.frees ≤ tally Op.frees (s.ops sid) := le_tally_of_mem hop
  simp only [freesApart, Bool.and_eq_true, decide_eq_true_eq] at hC
  exact ⟨by omega, by omega, tally_eq_zero.mp (by omega)⟩

/-- **`ReleaseSession` finds the store whole**: nothing of what it counts is freed yet. -/
theorem Accounted.whole (h : Accounted sid s log b i) (ht : Tracked sid s log)
    (halone : Alone sid s) (hsince : log.releasedSince = false) :
    i = 0 := by
  have hempty : b = [] → i = 0 := by
    rintro rfl
    exact Nat.le_zero.mp h.counts.le
  cases hf : log.sendFailed with
  | true => exact h.unreleased hf hsince
  | false =>
    have htokens := ht.tokens
    rw [hf, State.tokens, halone.sends] at htokens
    cases hm : (s.session sid).ioMode with
    | nonSending => exact hempty (h.holding.idle hm)
    | sending =>
      -- the token is with a thread that carries nothing
      rw [hm, IoMode.taken] at htokens
      obtain ⟨op, hop, hpos⟩ := tally_pos.mp (by simp at htokens; omega :
        0 < tally Op.holds (s.ops sid))
      exact hempty (holds_of_carries (halone.carries op hop) hpos (h.holding.ops op hop hpos)).1

/-- What is enqueued and not freed is where `ReleaseSession` looks for it. -/
theorem Accounted.left (h : Accounted sid s log b 0) (halone : Alone sid s)
    (hmem : packet ∈ log.enqueued) :
    packet ∈ log.freed ∨ packet ∈ b ∨ packet ∈ (s.session sid).sendQ := by
  have hcount := h.conserved packet (.inl hmem)
  have htakes : tally (Op.takes packet) (s.ops sid) = 0 :=
    tally_eq_zero.mpr fun op hop => takes_of_carries (halone.carries op hop)
  have hpos := List.count_pos_iff.mpr hmem
  rw [htakes, List.drop_zero] at hcount
  simp only [← List.count_pos_iff]
  omega

theorem mem_mark_began (h : packet ∈ (log.mark op).began) :
    packet ∈ log.began ∨ packet ∈ log.enqueued := by
  unfold FreeLog.mark at h
  split at h
  · exact .inr h
  · exact .inl h
  · exact .inl h

/-- **A step of `ReleaseSession`.** -/
theorem Accounted.frees (h : Accounted sid s log b i) (ht : Tracked sid s log)
    (hreach : (system cfg).Reachable s) (hC : freesApart sid s log e = true)
    (hs : Step cfg s e s') (hr : Runs cfg sid s e s' log op ok o) (hpos : 0 < op.frees) :
    ∃ i', Accounted sid s' (log.record cfg sid s e) b i' := by
  have halone := alone_of_freesApart hC hr.mem hpos
  have hholds : op.holds = 0 := by
    cases op <;> first | rfl | exact absurd hpos (lt_irrefl 0)
  have hfails : MultiLanClient.sendFails sid s e = false := by
    rw [hr.sendFails]
    cases op <;> first | rfl | exact absurd hpos (lt_irrefl 0)
  have hlog : log.Frees (log.note cfg sid s e) o.freed := hr.frees ▸ note_frees hfails
  have hle : s.tokens sid ≤ (s.session sid).ioMode.taken := tokens_le_taken hreach sid
  obtain ⟨i', hrel⟩ : ∃ i', Releases (log.note cfg sid s e) (s.session sid) op o b i i' := by
    by_cases hbegin : ∃ c, op = .releaseSession c
    · obtain ⟨c, rfl⟩ := hbegin
      have hsince : log.releasedSince = false := by
        simp only [freesApart, hr.running, Bool.and_eq_true, Bool.not_eq_true'] at hC
        exact hC.2
      obtain rfl := h.whole ht halone hsince
      refine ⟨0, hr.exec.releaseSession h.counts rfl fun packet hmem => ?_⟩
      have hmem : packet ∈ log.enqueued ++ s.enqueues cfg sid e := hmem
      have henq : s.enqueues cfg sid e = [] := hr.enqueues
      rw [henq, List.append_nil] at hmem
      exact (h.left halone hmem).imp_left fun hfreed => List.mem_append_left _ hfreed
    · push Not at hbegin
      exact hr.exec.frees hpos hbegin h.counts (h.freeing op hr.mem) hlog
  refine ⟨i', hr.session ▸ hrel.counts,
    fun packet hmine => h.conserved_step ht hs hr hrel.conserves hmine, ?_, fun op' hop' => ?_,
    fun hfailed hsince => ?_, fun packet hmem => ?_, fun packet hmem => ?_⟩
  · refine h.holding.step hs (staffed_of_reachable hreach) hle (fun _ => ⟨?_, ?_, id⟩)
      (fun hb _ => hb) (fun _ hi => hi) (fun op' ok' o' hh _ => ?_)
    · intro op' hop' hpos' hF
      obtain ⟨hb, hany⟩ := holds_of_carries (halone.carries op' hop') hpos' hF
      exact hany _ _ _ hb
    · intro w hw
      have hnone := not_mem_of_sends halone.sends w
      exact (hw.elim hnone.1 hnone.2).elim
    · obtain ⟨rfl, -, -⟩ := hr.holderRuns hh
      exact absurd hh.2.1 (by omega)
  · rw [hr.record, hr.session]
    rcases hr.ops.mem Op.frees hop' with hnew | ⟨-, hadd⟩
    · exact hrel.next op' (Option.mem_toList.mp hnew)
    · rw [halone.frees, tally_cons, tally_nil] at hadd
      exact freeing_of_frees (by omega)
  · rw [hr.record] at hfailed hsince
    exact absurd ((hrel.marked hfailed).symm.trans hsince) (by decide)
  · rw [record_enqueues]
    rw [hr.record] at hmem
    rcases mem_mark_began hmem with hmem | hmem
    · exact List.mem_append_left _ (h.began packet hmem)
    · exact hmem
  · rw [record_enqueues, record_freed]
    rw [hr.record] at hmem
    rcases hrel.released packet hmem with hmem | ⟨hmem, hfreed⟩
    · obtain ⟨henq, hfreed⟩ := h.released packet hmem
      exact ⟨List.mem_append_left _ henq, List.mem_append_left _ hfreed⟩
    · exact ⟨List.mem_append_left _ (h.began packet hmem), hfreed⟩

/-- **Every step that keeps the frees apart keeps the account.** -/
theorem Accounted.step (h : Accounted sid s log b i) (ht : Tracked sid s log)
    (hreach : (system cfg).Reachable s) (hC : freesApart sid s log e = true)
    (hs : Step cfg s e s') : ∃ b' i', Accounted sid s' (log.record cfg sid s e) b' i' := by
  have hst := staffed_of_reachable hreach
  cases hout : s.outcome cfg sid e with
  | none =>
    refine ⟨b, i, h.beside ht hst hs (fun op ok o hh => ?_) (hs.beside_of_none ht hout)⟩
    cases hout.symm.trans (outcome_eq hh.1 hh.2.2)
  | some x =>
    obtain ⟨op, o⟩ := x
    obtain ⟨ok, hr⟩ := hs.runs log hout
    rcases Nat.eq_zero_or_pos op.holds with hholds | hpos
    · rcases Nat.eq_zero_or_pos op.frees with hfrees | hpos
      · refine ⟨b, i, h.beside ht hst hs (fun op' ok' o' hh => ?_) (hr.beside hholds hfrees)⟩
        obtain ⟨rfl, -, -⟩ := hr.holderRuns hh
        exact absurd hh.2.1 (by omega)
      · exact ⟨b, h.frees ht hreach hC hs hr hpos⟩
    · exact h.holder ht hst hC hs hr hpos

/-! ## The result -/

theorem Accounted.freedOnce (h : Accounted sid s log b i) (ht : Tracked sid s log) :
    FreedOnce log := by
  have hone : ∀ packet ∈ log.enqueued, log.freed.count packet ≤ 1 := fun packet hmem => by
    have := h.conserved packet (.inl hmem)
    have := ht.once packet
    omega
  refine ⟨hone, fun packet hmem => ?_⟩
  obtain ⟨henq, hfreed⟩ := h.released packet hmem
  exact le_antisymm (hone packet henq) (List.count_pos_iff.mpr hfreed)

/-- **Send buffers are freed exactly once**, in every state of a run that keeps the frees apart. -/
theorem freedOnce_of_freesApart {x : State × FreeLog}
    (h : ((system cfg).recorded FreeLog.empty (FreeLog.record cfg sid)).ReachableUnder
      (fun x e => freesApart sid x.1 x.2 e = true) x) : FreedOnce x.2 := by
  have hinv : Tracked sid x.1 x.2 ∧ ∃ b i, Accounted sid x.1 x.2 b i := by
    refine System.ReachableUnder.recorded_invariant
      (P := fun s log => Tracked sid s log ∧ ∃ b i, Accounted sid s log b i) ?_ ?_ h
    · rintro s ⟨senders, rfl⟩
      exact ⟨tracked_initial senders, [], 0, accounted_initial senders⟩
    · rintro s log e s' hr ⟨ht, b, i, ha⟩ hC hs
      exact ⟨ht.step (staffed_of_reachable hr) (step_cases hs), ha.step ht hr hC (step_cases hs)⟩
  obtain ⟨ht, b, i, ha⟩ := hinv
  exact ha.freedOnce ht

/-- A `WSASend` fails with one packet in the store and another in the queue. `ReleaseSession` frees
both, and the channel is connected again. -/
def failedRun : List Event :=
  startRun ++ .sendPacket 3 none :: execs 3 7 ++ .sendPacket 4 none :: execs 4 2 ++
    .exec 3 false :: .complete 0 0 [] :: .getQueuedCompletion 2 0 0 :: execs 2 10 ++
    .reconnect 1 :: execs 1 6

theorem freedOnce_failed : ∃ x : State × FreeLog,
    (x.2.released = [⟨0, none⟩, ⟨1, none⟩] ∧ (x.1.session 0).connected = true) ∧
      FreedOnce x.2 := by
  obtain ⟨x, hx, hf⟩ := System.exists_reachableUnder
    ((system oneChannel).recorded FreeLog.empty (FreeLog.record oneChannel 0)) failedRun
    (s := (initialState oneChannel 2, FreeLog.empty)) (c := fun x e => freesApart 0 x.1 x.2 e)
    (f := fun x => decide
      (x.2.released = [⟨0, none⟩, ⟨1, none⟩] ∧ (x.1.session 0).connected = true))
    ⟨⟨2, rfl⟩, rfl⟩ (by decide +kernel)
  exact ⟨x, of_decide_eq_true hf, freedOnce_of_freesApart hx⟩

/-- **The second connection frees the store of the first**: its `ReleaseSession` finds the packets
still counted whose `WSASend` failed. -/
theorem not_freedOnce_releasedAgain : ∃ x : State × FreeLog,
    ((system oneChannel).recorded FreeLog.empty (FreeLog.record oneChannel 0)).Reachable x ∧
      ¬ FreedOnce x.2 := by
  obtain ⟨x, hx, hf⟩ := System.exists_reachable
    ((system oneChannel).recorded FreeLog.empty (FreeLog.record oneChannel 0))
    (failedRun ++ .complete 0 0 [] :: .getQueuedCompletion 2 0 0 :: execs 2 9)
    (s := (initialState oneChannel 2, FreeLog.empty)) (f := fun x => decide (¬ FreedOnce x.2))
    ⟨⟨2, rfl⟩, rfl⟩ (by decide +kernel)
  exact ⟨x, hx, of_decide_eq_true hf⟩

end MultiLanClient

end DdingGameServer
