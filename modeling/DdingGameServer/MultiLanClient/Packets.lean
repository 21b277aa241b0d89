import DdingGameServer.MultiLanClient.Handover
/-!
# MultiLanClient — packets stay in their channel

A packet reaches one channel and never leaves it for another: it waits at the caller of
`SendPacket`, goes into the `SendQ` and from there into the store, and whatever a thread passes to
`CSerializationBuf::Free` it has read from the store or the queue of its own session. Serial
numbers tell the packets apart, since every call of `SendPacket` brings a new one. All this holds
in every reachable state, whatever the threads do to each other.
-/

namespace DdingGameServer

namespace MultiLanClient

variable {cfg : Config} {s s' : State} {e : Event} {sid sid' : ℕ} {op op' : Op} {ok : Bool}
  {se : Session} {ids : List ℕ} {o : Outcome} {c : Caller} {r : PostRetval} {packet : Buffer}
  {enqueued freed : List Buffer}

/-! ## Where a packet is -/

/-- The packets in the local variables of a thread. -/
def Op.packets : Op → List Buffer
  | .enqueue packet => [packet]
  | .freeQueued _ _ deleteBuf => deleteBuf.toList
  | _ => []

/-- A packet a thread of the session can come by: one in `SendQ`, in the store, or in a variable. -/
def Session.keeps (se : Session) (ops : List Op) (packet : Buffer) : Prop :=
  packet ∈ se.sendQ ∨ (∃ i, se.serializeBufStore i = some packet) ∨
    ∃ op ∈ ops, packet ∈ op.packets

/-- The session `sid` keeps the packet. -/
def State.keeps (sid : ℕ) (s : State) (packet : Buffer) : Prop :=
  (s.session sid).keeps (s.ops sid) packet

/-- The packet a step puts into the `SendQ` of the session `sid`. -/
def State.enqueues (cfg : Config) (sid : ℕ) (s : State) (e : Event) : List Buffer :=
  (s.outcome cfg sid e).elim [] fun x => x.1.enqueued

/-- The buffers a step passes to `CSerializationBuf::Free`, whatever session its thread is at. -/
def State.frees (cfg : Config) (s : State) : Event → List Buffer
  | .exec i ok => (s.threads[i]?).elim [] fun t =>
    (s.outcome cfg t.session (.exec i ok)).elim [] fun x => x.2.freed
  | _ => []

/-- The step is a call of `SendPacket` with this packet, which chooses the session `sid`. -/
def Brings (cfg : Config) (sid : ℕ) (s : State) (e : Event) (s' : State) (packet : Buffer) : Prop :=
  ∃ i fixedId selected, e = .sendPacket i fixedId ∧
    getChannelId cfg s.channelSelector fixedId = (some sid, selected) ∧
    packet = ⟨s.nextSerial, fixedId⟩ ∧ s'.nextSerial = s.nextSerial + 1

/-! ## One operation -/

theorem packets_of_mem_resume (h : c.resume r = some op) : op.packets = [] := by
  cases c <;> cases r <;> simp only [Caller.resume, Option.some.injEq, reduceCtorEq] at h <;>
    subst h <;> rfl

theorem packets_of_mem_decrement {next : Option Op} (hnext : ∀ op' ∈ next, op'.packets = [])
    (h : (decrement se ids c next).next = some op) : op.packets = [] := by
  rcases decrement_next se ids c next with heq | heq
  · rw [heq] at h
    cases h
    rfl
  · exact hnext op (heq.symm.trans h)

/-- A thread takes its packets from the session it is at. -/
theorem Exec.packets_next (h : Exec cfg ok sid se ids op o) (hnext : o.next = some op')
    (hmem : packet ∈ op'.packets) : packet ∈ se.sendQ ∨ packet ∈ op.packets := by
  have hnil : op'.packets = [] → packet ∈ se.sendQ ∨ packet ∈ op.packets := fun hnil => by
    rw [hnil] at hmem
    cases hmem
  cases h with
  | casFailed | recheckEmpty | recvPosted | pushed => exact hnil (packets_of_mem_resume hnext)
  | sendFailed | ringFull | recvFailed =>
    exact hnil (packets_of_mem_decrement (fun _ h => packets_of_mem_resume h) hnext)
  | workerEnded => exact hnil (packets_of_mem_decrement (by simp) hnext)
  | socketClosed =>
    dsimp only at hnext
    split at hnext
    · cases hnext
      cases hmem
    · exact hnil (packets_of_mem_resume hnext)
  | queuedFreed c rest deleteBuf hq =>
    cases hnext
    obtain rfl := List.mem_singleton.mp hmem
    exact .inl (hq ▸ List.mem_cons_self)
  | queuedNothing c rest hq =>
    cases hnext
    exact .inr hmem
  | popped => cases hnext
  | _ =>
    cases hnext
    cases hmem

/-- What is in the queue afterwards was there, or in the hands of the thread. -/
theorem Exec.mem_sendQ (h : Exec cfg ok sid se ids op o) (hmem : packet ∈ o.session.sendQ) :
    packet ∈ se.sendQ ∨ packet ∈ op.packets := by
  cases h with
  | enqueued p => exact List.mem_append.mp hmem
  | dequeued c hlt hq => exact .inl (hq ▸ List.mem_cons_of_mem _ hmem)
  | queuedFreed c rest deleteBuf hq => exact .inl (hq ▸ List.mem_cons_of_mem _ hmem)
  | _ => exact .inl hmem

/-- What is in the store afterwards was there, or in the queue. -/
theorem Exec.mem_store (h : Exec cfg ok sid se ids op o) {k : ℕ}
    (hmem : o.session.serializeBufStore k = some packet) :
    packet ∈ se.sendQ ∨ se.serializeBufStore k = some packet := by
  cases h with
  | @dequeued c u w q p hlt hq =>
    dsimp only at hmem
    rw [Function.update_apply] at hmem
    split at hmem
    · obtain rfl := Option.some.inj hmem
      exact .inl (hq ▸ List.mem_cons_self)
    · exact .inr hmem
  | _ => exact .inr hmem

/-- **What is freed is kept by the session.** -/
theorem Exec.keeps_of_freed (h : Exec cfg ok sid se ids op o) (hmem : packet ∈ o.freed) :
    se.keeps [op] packet := by
  cases h with
  | storedFreed c rest hlt hstore =>
    obtain rfl := List.mem_singleton.mp hmem
    exact .inr (.inl ⟨_, hstore⟩)
  | sentFreed hlt hstore =>
    obtain rfl := List.mem_singleton.mp hmem
    exact .inr (.inl ⟨_, hstore⟩)
  | queuedFreed c rest deleteBuf hq =>
    obtain rfl := List.mem_singleton.mp hmem
    exact .inl (hq ▸ List.mem_cons_self)
  | queuedNothing c rest hq =>
    obtain rfl := List.mem_singleton.mp hmem
    exact .inr (.inr ⟨_, List.mem_singleton_self _, List.mem_singleton_self _⟩)
  | _ => cases hmem

/-! ## One step -/

theorem keeps_of_waiting (h : .enqueue packet ∈ s.ops sid) : s.keeps sid packet :=
  .inr (.inr ⟨_, h, List.mem_singleton_self _⟩)

theorem Session.keeps.mono {ops ops' : List Op} (h : se.keeps ops packet)
    (hops : ∀ op ∈ ops, op ∈ ops') : se.keeps ops' packet :=
  h.imp_right fun h => h.imp_right fun ⟨op, hop, hmem⟩ => ⟨op, hops op hop, hmem⟩

/-- A session comes by a packet through a call of `SendPacket` only. -/
theorem Step.keeps (hs : Step cfg s e s') (h : s'.keeps sid packet) :
    s.keeps sid packet ∨ Brings cfg sid s e s' packet := by
  -- a thread that comes to the session with no packet
  have hadd : ∀ {op' : Op}, Replaces [] [op'] (s.ops sid) (s'.ops sid) → op'.packets = [] →
      (s'.session sid).sendQ = (s.session sid).sendQ →
      (s'.session sid).serializeBufStore = (s.session sid).serializeBufStore →
      s.keeps sid packet := by
    intro op' hops hnil hq hstore
    rcases h with h | ⟨k, h⟩ | ⟨op, hop, h⟩
    · exact .inl (hq ▸ h)
    · exact .inr (.inl ⟨k, hstore ▸ h⟩)
    · rcases hops.mem Op.holds hop with hnew | ⟨hold, -⟩
      · rw [List.mem_singleton.mp hnew, hnil] at h
        cases h
      · exact .inr (.inr ⟨op, hold, h⟩)
  cases hs.alters sid with
  | kept hse hops => exact .inl (by rwa [State.keeps, hse, hops] at h)
  | started _ hse hops => exact .inl (hadd hops rfl (by rw [hse]; rfl) (by rw [hse]; rfl))
  | @sent s' i t fixedId selected _ _ _ hchannel _ hse hserial hops =>
    rcases h with h | ⟨k, h⟩ | ⟨op, hop, h⟩
    · exact .inl (.inl (hse ▸ h))
    · exact .inl (.inr (.inl ⟨k, hse ▸ h⟩))
    · rcases hops.mem Op.holds hop with hnew | ⟨hold, -⟩
      · rw [List.mem_singleton.mp hnew] at h
        exact .inr ⟨i, fixedId, selected, rfl, hchannel, List.mem_singleton.mp h, hserial⟩
      · exact .inl (.inr (.inr ⟨op, hold, h⟩))
  | finished _ hse hops => exact .inl (by rwa [State.keeps, hse, hops] at h)
  | @taken s' i k t c _ _ _ hse hops =>
    have hnil : c.op.packets = [] := by
      cases c with
      | recv data =>
        simp only [Completion.op]
        split <;> rfl
      | send b => rfl
    exact .inl (hadd hops hnil (by rw [hse]; rfl) (by rw [hse]; rfl))
  | reconnecting _ _ _ _ hse hops => exact .inl (hadd hops rfl (by rw [hse]) (by rw [hse]))
  | @executed s' i t op o ok _ _ _ ho hse _ hops =>
    have hx := execOp_cases ho
    have hmem : op ∈ s.ops sid := hops.mem_old List.mem_cons_self
    have hold : packet ∈ (s.session sid).sendQ ∨ packet ∈ op.packets → s.keeps sid packet :=
      fun h => h.elim .inl fun h => .inr (.inr ⟨op, hmem, h⟩)
    left
    rcases h with h | ⟨k, h⟩ | ⟨op', hop', h⟩
    · exact hold (hx.mem_sendQ (hse ▸ h))
    · exact (hx.mem_store (hse ▸ h)).elim .inl fun h => .inr (.inl ⟨k, h⟩)
    · rcases hops.mem Op.holds hop' with hnew | ⟨hop', -⟩
      · exact hold (hx.packets_next (Option.mem_toList.mp hnew) h)
      · exact .inr (.inr ⟨op', hop', h⟩)

/-- So is what waits to be enqueued. -/
theorem Step.waiting (hs : Step cfg s e s') (h : .enqueue packet ∈ s'.ops sid) :
    .enqueue packet ∈ s.ops sid ∨ Brings cfg sid s e s' packet := by
  have hadd : ∀ {new : List Op}, Replaces [] new (s.ops sid) (s'.ops sid) →
      .enqueue packet ∉ new → .enqueue packet ∈ s.ops sid := by
    intro new hops hnot
    rcases hops.mem Op.holds h with hnew | ⟨hold, -⟩
    · exact absurd hnew hnot
    · exact hold
  cases hs.alters sid with
  | kept _ hops | finished _ _ hops => exact .inl (hops ▸ h)
  | started _ _ hops | reconnecting _ _ _ _ _ hops => exact .inl (hadd hops (by simp))
  | @sent s' i t fixedId selected _ _ _ hchannel _ _ hserial hops =>
    rcases hops.mem Op.holds h with hnew | ⟨hold, -⟩
    · exact .inr ⟨i, fixedId, selected, rfl, hchannel, by simpa using hnew, hserial⟩
    · exact .inl hold
  | @taken s' i k t c _ _ _ _ hops =>
    refine .inl (hadd hops ?_)
    cases c with
    | recv data =>
      simp only [Completion.op]
      split <;> simp
    | send b => simp [Completion.op]
  | executed _ _ _ ho _ _ hops =>
    rcases hops.mem Op.holds h with hnew | ⟨hold, -⟩
    · exact absurd (Option.mem_toList.mp hnew) (execOp_cases ho).next_ne_enqueue
    · exact .inl hold

theorem Step.nextSerial_le (hs : Step cfg s e s') : s.nextSerial ≤ s'.nextSerial := by
  cases hs with
  | packetSent => exact Nat.le_succ _
  | _ => exact le_rfl

theorem Brings.serial (h : Brings cfg sid s e s' packet) : packet.serial = s.nextSerial := by
  obtain ⟨-, -, -, -, -, rfl, -⟩ := h
  rfl

/-- A call of `SendPacket` brings its packet to one session. -/
theorem Brings.channel (h : Brings cfg sid s e s' packet) (h' : Brings cfg sid' s e s' packet) :
    sid = sid' := by
  obtain ⟨i, fixedId, selected, rfl, hchannel, -, -⟩ := h
  obtain ⟨j, fixedId', selected', heq, hchannel', -, -⟩ := h'
  obtain ⟨-, rfl⟩ := Event.sendPacket.inj heq
  exact Option.some.inj (Prod.mk.inj (hchannel.symm.trans hchannel')).1

theorem waiting_of_enqueues (h : packet ∈ s.enqueues cfg sid e) : .enqueue packet ∈ s.ops sid := by
  rw [State.enqueues] at h
  cases hout : s.outcome cfg sid e with
  | none =>
    rw [hout] at h
    cases h
  | some x =>
    obtain ⟨op, o⟩ := x
    obtain ⟨ok, hrun, -⟩ := execOp_of_outcome hout
    rw [hout] at h
    have hop : op = .enqueue packet := by
      cases op <;> simp_all [Op.enqueued]
    exact hop ▸ mem_ops_of_running hrun

/-- A step frees what the session of its thread keeps. -/
theorem keeps_of_frees (h : packet ∈ s.frees cfg e) :
    ∃ sid, s.keeps sid packet ∧ s.outcome cfg sid e ≠ none := by
  cases e with
  | exec i ok =>
    simp only [State.frees] at h
    cases hi : s.threads[i]? with
    | none =>
      rw [hi] at h
      cases h
    | some t =>
      rw [hi] at h
      cases hout : s.outcome cfg t.session (.exec i ok) with
      | none =>
        rw [Option.elim_some, hout] at h
        cases h
      | some x =>
        obtain ⟨op, o⟩ := x
        obtain ⟨ok', hrun, ho⟩ := execOp_of_outcome hout
        rw [Option.elim_some, hout] at h
        refine ⟨t.session, ((execOp_cases ho).keeps_of_freed h).mono fun op' hop' => ?_,
          by simp [hout]⟩
        rw [List.mem_singleton.mp hop']
        exact mem_ops_of_running hrun
  | _ => cases h

/-! ## The packets of one channel -/

/-- **Packets stay where they were sent to.** What the session `sid` was given, no other session
comes by; and only packets that were sent are anywhere. -/
structure Housed (sid : ℕ) (s : State) (enqueued freed : List Buffer) : Prop where
  keeps_lt : ∀ sid' packet, s.keeps sid' packet → packet.serial < s.nextSerial
  enqueued_lt : ∀ packet ∈ enqueued, packet.serial < s.nextSerial
  freed_lt : ∀ packet ∈ freed, packet.serial < s.nextSerial
  elsewhere : ∀ sid' packet, s.keeps sid' packet → sid' ≠ sid →
    packet ∉ enqueued ∧ .enqueue packet ∉ s.ops sid

theorem not_keeps_initial (senders : ℕ) : ¬ (initialState cfg senders).keeps sid packet := by
  obtain ⟨hse, hops⟩ := (staffed_initial cfg senders).fresh sid (Nat.zero_le _)
  rw [State.keeps, hse, hops, Session.keeps]
  simp [Session.new]

theorem housed_initial (senders : ℕ) : Housed sid (initialState cfg senders) [] [] := by
  refine ⟨fun _ _ h => absurd h (not_keeps_initial senders), ?_, ?_,
    fun _ _ h => absurd h (not_keeps_initial senders)⟩
  · intro _ h
    cases h
  · intro _ h
    cases h

/-- **Every step keeps them there.** -/
theorem Housed.step (h : Housed sid s enqueued freed) (hs : Step cfg s e s') :
    Housed sid s' (enqueued ++ s.enqueues cfg sid e) (freed ++ s.frees cfg e) := by
  have hle := hs.nextSerial_le
  have hkeeps : ∀ sid' packet, s.keeps sid' packet → packet.serial < s'.nextSerial :=
    fun sid' packet hk => (h.keeps_lt sid' packet hk).trans_le hle
  -- whatever the session was given before the step
  have hgiven : ∀ packet ∈ enqueued ++ s.enqueues cfg sid e,
      packet ∈ enqueued ∨ .enqueue packet ∈ s.ops sid := fun packet hmem =>
    (List.mem_append.mp hmem).imp_right waiting_of_enqueues
  refine ⟨fun sid' packet hk => ?_, fun packet hmem => ?_, fun packet hmem => ?_,
    fun sid' packet hk hne => ?_⟩
  · rcases hs.keeps hk with hold | hnew
    · exact hkeeps sid' packet hold
    · obtain ⟨-, -, -, -, -, rfl, hserial⟩ := hnew
      exact hserial ▸ Nat.lt_succ_self _
  · rcases hgiven packet hmem with hmem | hmem
    · exact (h.enqueued_lt packet hmem).trans_le hle
    · exact hkeeps sid packet (keeps_of_waiting hmem)
  · rcases List.mem_append.mp hmem with hmem | hmem
    · exact (h.freed_lt packet hmem).trans_le hle
    · obtain ⟨sid', hk, -⟩ := keeps_of_frees hmem
      exact hkeeps sid' packet hk
  · rcases hs.keeps hk with hold | hnew
    · obtain ⟨hnot, hwait⟩ := h.elsewhere sid' packet hold hne
      refine ⟨fun hmem => (hgiven packet hmem).elim hnot hwait, fun hmem => ?_⟩
      rcases hs.waiting hmem with hmem | hbrings
      · exact hwait hmem
      · have := h.keeps_lt sid' packet hold
        have := hbrings.serial
        omega
    · have hserial := hnew.serial
      refine ⟨fun hmem => ?_, fun hmem => ?_⟩
      · rcases hgiven packet hmem with hmem | hmem
        · have := h.enqueued_lt packet hmem
          omega
        · have := h.keeps_lt sid packet (keeps_of_waiting hmem)
          omega
      · rcases hs.waiting hmem with hmem | hbrings
        · have := h.keeps_lt sid packet (keeps_of_waiting hmem)
          omega
        · exact hne (hnew.channel hbrings)

/-- The packet was put into the `SendQ` of the session `sid`, or waits to be. -/
def Mine (sid : ℕ) (s : State) (enqueued : List Buffer) (packet : Buffer) : Prop :=
  packet ∈ enqueued ∨ .enqueue packet ∈ s.ops sid

/-- A packet of this session is freed by nobody at another. -/
theorem Housed.not_mem_frees (h : Housed sid s enqueued freed)
    (hmine : Mine sid s enqueued packet) (hout : s.outcome cfg sid e = none) :
    packet ∉ s.frees cfg e := by
  intro hmem
  obtain ⟨sid', hk, hne⟩ := keeps_of_frees hmem
  have helse := h.elsewhere sid' packet hk fun heq => hne (heq ▸ hout)
  exact hmine.elim helse.1 helse.2

/-- A session comes by packets of its own in two ways. -/
theorem Step.mine (hs : Step cfg s e s')
    (h : Mine sid s' (enqueued ++ s.enqueues cfg sid e) packet) :
    Mine sid s enqueued packet ∨ Brings cfg sid s e s' packet := by
  rcases h with h | h
  · exact .inl ((List.mem_append.mp h).imp_right waiting_of_enqueues)
  · exact (hs.waiting h).imp_left .inr

/-- 1 for the thread that is about to enqueue the packet. -/
def Op.waits (packet : Buffer) (op : Op) : ℕ := op.enqueued.count packet

/-- **No packet is enqueued twice**, nor waits to be enqueued again. -/
def Once (sid : ℕ) (s : State) (enqueued : List Buffer) : Prop :=
  ∀ packet, enqueued.count packet + tally (Op.waits packet) (s.ops sid) ≤ 1

theorem once_initial (senders : ℕ) : Once sid (initialState cfg senders) [] := by
  intro packet
  rw [((staffed_initial cfg senders).fresh sid (Nat.zero_le _)).2]
  exact Nat.zero_le _

theorem waiting_pos (h : 0 < op.waits packet) : op = .enqueue packet := by
  have hmem := List.count_pos_iff.mp h
  cases op <;> simp_all [Op.enqueued]

theorem Housed.once_step (h : Housed sid s enqueued freed) (hone : Once sid s enqueued)
    (hs : Step cfg s e s') : Once sid s' (enqueued ++ s.enqueues cfg sid e) := by
  intro packet
  have hold := hone packet
  have hmoved : ∀ {old new : List Op}, Replaces old new (s.ops sid) (s'.ops sid) →
      (s.enqueues cfg sid e).count packet + tally (Op.waits packet) new ≤
        tally (Op.waits packet) old →
      (enqueued ++ s.enqueues cfg sid e).count packet +
        tally (Op.waits packet) (s'.ops sid) ≤ 1 := by
    intro old new hops hle
    have := hops.tally_eq (Op.waits packet)
    rw [List.count_append]
    omega
  cases hs.alters sid with
  | kept _ hops hcrash =>
    have hnone : s.enqueues cfg sid e = [] := by
      rw [State.enqueues, outcome_of_crash hcrash]
      rfl
    rw [hnone, hops, List.append_nil]
    exact hold
  | started _ _ hops | reconnecting _ _ _ _ _ hops => exact hmoved hops (Nat.le_refl 0)
  | finished _ _ hops =>
    rw [hops]
    simpa [State.enqueues, State.outcome, State.running] using hold
  | taken _ _ _ _ hops =>
    refine hmoved hops (Nat.le_zero.mpr (Nat.add_eq_zero_iff.mpr ⟨rfl, ?_⟩))
    rename_i c _ _ _ _
    cases c with
    | recv data =>
      simp only [Completion.op]
      split <;> rfl
    | send b => rfl
  | @sent s' i t fixedId selected _ _ _ _ _ _ _ hops =>
    -- the packet has a serial number of its own
    have htally := hops.tally_eq (Op.waits packet)
    have hnone : s.enqueues cfg sid (.sendPacket i fixedId) = [] := rfl
    have hwaits : (Op.enqueue ⟨s.nextSerial, fixedId⟩).waits packet =
        [(⟨s.nextSerial, fixedId⟩ : Buffer)].count packet := rfl
    simp only [tally_nil, tally_cons, hwaits] at htally
    rw [hnone, List.append_nil]
    by_cases hnew : packet = ⟨s.nextSerial, fixedId⟩
    · subst hnew
      have hfresh : enqueued.count ⟨s.nextSerial, fixedId⟩ = 0 :=
        List.count_eq_zero.mpr fun hmem => (h.enqueued_lt _ hmem).ne rfl
      have hwait : tally (Op.waits ⟨s.nextSerial, fixedId⟩) (s.ops sid) = 0 :=
        tally_eq_zero.mpr fun op hop => Nat.eq_zero_of_not_pos fun hpos =>
          (h.keeps_lt sid _ (keeps_of_waiting (waiting_pos hpos ▸ hop))).ne rfl
      rw [List.count_singleton_self] at htally
      omega
    · rw [List.count_singleton, if_neg (by simpa using Ne.symm hnew)] at htally
      omega
  | @executed s' i t op o ok hi hsid hop ho _ _ hops =>
    have henq : s.enqueues cfg sid (.exec i ok) = op.enqueued := by
      rw [State.enqueues, outcome_eq (running_eq hi hsid hop) ho]
      rfl
    refine hmoved hops ?_
    have hnext : tally (Op.waits packet) o.next.toList = 0 :=
      tally_eq_zero.mpr fun op' hop' => Nat.eq_zero_of_not_pos fun hpos =>
        (execOp_cases ho).next_ne_enqueue (waiting_pos hpos ▸ Option.mem_toList.mp hop')
    rw [henq, hnext, tally_cons, tally_nil]
    exact le_rfl

end MultiLanClient

end DdingGameServer
