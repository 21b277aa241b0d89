import DdingGameServer.MultiLanClient.Token
/-!
# MultiLanClient — no lost wakeup on a live connection

`connection` is the client from a point at which one channel is at rest, and `live` says of a step
that the connection of the channel goes on: its `WSASend` succeeds and its last reference is not
given back. Then the token always has a holder, and whenever it is at hand while packets wait, some
thread is about to ask for it: a producer whose compare-exchange failed has left the packet to a
holder that looks at the queue once more after the reset.
-/

namespace DdingGameServer

namespace MultiLanClient

variable {cfg : Config} {s s' : State} {e : Event} {sid : ℕ} {op : Op} {ok : Bool} {se : Session}
  {ids : List ℕ} {o : Outcome}

/-! ## One live connection -/

/-- The operations of `SendPacketImpl`, and of a send completion up to the end of its `SendPost`. -/
def Op.sends : Op → Bool
  | .enqueue _ | .sendPostCas _ | .getRestSize _ | .resetMode _ | .recheckRestSize _
  | .dequeue _ _ _ | .setBufferCount _ _ | .countSend _ _ | .wsaSend _ _ | .sendCompleted
  | .freeSent _ _ | .subtractCount _ | .resetSending => true
  | _ => false

/-- No thread is executing `SendPacketImpl` or a send completion of the channel, and no `WSASend`
of it is outstanding. -/
structure SendIdle (sid : ℕ) (s : State) : Prop where
  ops : ∀ op ∈ s.ops sid, op.sends = false
  outstanding : (s.session sid).sends = 0

/-- `IOMode` is `NONSENDING` and `SendQ` is empty. -/
structure SendDrained (se : Session) : Prop where
  ioMode : se.ioMode = .nonSending
  sendQ : se.sendQ = []

/-- A channel on which nothing is under way. -/
structure AtRest (sid : ℕ) (s : State) : Prop where
  idle : SendIdle sid s
  drained : SendDrained (s.session sid)
  /-- The connection before it, if there was one, is released. -/
  released : tally Op.releases (s.ops sid) = 0

instance (sid : ℕ) (s : State) : Decidable (SendIdle sid s) :=
  decidable_of_iff ((∀ op ∈ s.ops sid, op.sends = false) ∧ (s.session sid).sends = 0)
    ⟨fun h => ⟨h.1, h.2⟩, fun h => ⟨h.ops, h.outstanding⟩⟩

/-- **The client from a point where the channel `sid` is at rest.** -/
def connection (cfg : Config) (sid : ℕ) : System State Event where
  Init s := (system cfg).Reachable s ∧ AtRest sid s
  step := step cfg

/-- The connection of the channel goes on over the step: its `WSASend` succeeds, and the last
reference is not given back. -/
def live (cfg : Config) (sid : ℕ) (s : State) (e : Event) : Bool :=
  match s.running sid e with
  | some (op, ok) =>
    let se := s.session sid
    !op.failsSend ok se && !(op.givesBack cfg ok se && se.ioCount == 1)
  | none => true

theorem sendFails_of_live (h : live cfg sid s e = true) : sendFails sid s e = false := by
  unfold live at h
  unfold sendFails
  cases hrun : s.running sid e with
  | none => rfl
  | some p =>
    rw [hrun] at h
    simp only [Bool.and_eq_true, Bool.not_eq_true'] at h
    exact h.1

theorem not_releasing_of_live (h : live cfg sid s e = true)
    (hrun : s.running sid e = some (op, ok)) :
    ¬ (op.givesBack cfg ok (s.session sid) = true ∧ (s.session sid).ioCount = 1) := by
  simp only [live, hrun, Bool.and_eq_true, Bool.not_eq_true', Bool.and_eq_false_iff,
    beq_eq_false_iff_ne] at h
  rintro ⟨hback, hone⟩
  rcases h.2 with h | h
  · rw [hback] at h; cases h
  · exact h hone

/-- A client that started with one channel at rest is a client. -/
theorem reachable_of_connection {C : State → Event → Prop}
    (h : (connection cfg sid).ReachableUnder C s) : (system cfg).Reachable s := by
  induction h with
  | init h => exact h.1
  | step _ _ hs ih => exact .step ih trivial hs

theorem atRest_initial (senders : ℕ) : AtRest sid (initialState cfg senders) := by
  have hops := ((staffed_initial cfg senders).fresh sid (Nat.zero_le _)).2
  refine ⟨⟨fun op hop => ?_, rfl⟩, ⟨rfl, rfl⟩, by rw [hops]; rfl⟩
  rw [hops] at hop
  cases hop

/-! ## The invariant -/

/-- 1 for an operation that is about to ask for the token. -/
def Op.wakes : Op → ℕ
  | .sendPostCas _ | .recheckRestSize _ => 1
  | _ => 0

theorem holds_of_not_sends (h : op.sends = false) : op.holds = 0 := by
  cases op <;> first | rfl | cases h

theorem wakes_of_not_sends (h : op.sends = false) : op.wakes = 0 := by
  cases op <;> first | rfl | cases h

/-- **What keeps a channel from stalling.** -/
structure SendAlive (sid : ℕ) (s : State) : Prop where
  /-- The token is out with exactly one holder, or at hand. -/
  tokens : s.tokens sid = (s.session sid).ioMode.taken
  /-- If it is at hand, somebody will ask for it before anything is left over. -/
  woken : (s.session sid).ioMode = .nonSending → (s.session sid).sendQ ≠ [] →
    0 < tally Op.wakes (s.ops sid)

/-- **An operation leaves no packet behind**: one that ends with the token at hand and packets in
the queue asks for it next, or neither was its doing. -/
theorem Exec.woken (h : Exec cfg ok sid se ids op o) (hmode : o.session.ioMode = .nonSending)
    (hq : o.session.sendQ ≠ []) :
    0 < tally Op.wakes o.next.toList ∨
      (op.wakes = 0 ∧ se.ioMode = .nonSending ∧ se.sendQ ≠ []) := by
  cases h with
  | enqueued | modeReset | recheckFound | sendReset | sent =>
    -- behind every enqueue and every reset stands a look at the token or the queue
    exact .inl (Nat.succ_pos _)
  | casFailed c hsending => exact nomatch hsending.symm.trans hmode
  | recheckEmpty c hempty => exact absurd hempty hq
  | queuedFreed c rest deleteBuf hcons =>
    exact .inr ⟨rfl, hmode, fun hnil => List.cons_ne_nil _ _ (hcons.symm.trans hnil)⟩
  | dequeued c hlt hcons =>
    exact .inr ⟨rfl, hmode, fun hnil => List.cons_ne_nil _ _ (hcons.symm.trans hnil)⟩
  | casTaken => cases hmode
  | _ => exact .inr ⟨rfl, hmode, hq⟩

theorem sendAlive_of_atRest (h : AtRest sid s) : SendAlive sid s := by
  have hzero : tally Op.holds (s.ops sid) = 0 :=
    tally_eq_zero.mpr fun op hop => holds_of_not_sends (h.idle.ops op hop)
  refine ⟨?_, fun _ hq => absurd h.drained.sendQ hq⟩
  rw [State.tokens, h.idle.outstanding, hzero, h.drained.ioMode]
  rfl

/-- A step that does not take a wakeup away leaves the channel awake. -/
theorem SendAlive.awake (h : SendAlive sid s) {new : List Op}
    (hops : Replaces [] new (s.ops sid) (s'.ops sid))
    (hmode : (s'.session sid).ioMode = (s.session sid).ioMode)
    (hq : (s'.session sid).sendQ = (s.session sid).sendQ)
    (hnon : (s'.session sid).ioMode = .nonSending) (hsome : (s'.session sid).sendQ ≠ []) :
    0 < tally Op.wakes (s'.ops sid) := by
  have htally := hops.tally_eq Op.wakes
  have := h.woken (hmode ▸ hnon) (hq ▸ hsome)
  rw [tally_nil] at htally
  omega

/-- **Every step of a live connection keeps the channel awake.** -/
theorem SendAlive.step (h : SendAlive sid s) (hst : Staffed cfg s)
    (hlive : live cfg sid s e = true) (hs : Step cfg s e s') : SendAlive sid s' := by
  refine ⟨hs.tokens_eq hst (sendFails_of_live hlive) h.tokens, fun hmode hq => ?_⟩
  cases hs.alters sid with
  | kept hse hops =>
    rw [hops]
    exact h.woken (hse ▸ hmode) (hse ▸ hq)
  | started hid hse hops =>
    obtain ⟨hnew, -⟩ := hst.fresh sid (hid ▸ le_rfl)
    exact absurd (by rw [hse, hnew]; rfl) hq
  | sent _ _ _ _ _ hse _ hops => exact h.awake hops (by rw [hse]) (by rw [hse]) hmode hq
  | finished hr hse hops =>
    rw [hops]
    exact h.woken (by rwa [hse] at hmode) (by rwa [hse] at hq)
  | taken _ _ hc hse hops => exact h.awake hops (by rw [hse]; rfl) (by rw [hse]; rfl) hmode hq
  | reconnecting _ _ _ _ hse hops => exact h.awake hops (by rw [hse]) (by rw [hse]) hmode hq
  | executed hi hsid hop ho hse hids hops =>
    have htally := hops.tally_eq Op.wakes
    rcases (execOp_cases ho).woken (hse ▸ hmode) (hse ▸ hq) with hnext | ⟨hop, hnon, hsome⟩
    · have hle := hops.mem_old List.mem_cons_self
      have : Op.wakes _ ≤ tally Op.wakes (s.ops sid) := le_tally_of_mem hle
      simp only [tally_cons, tally_nil] at htally
      omega
    · have := h.woken hnon hsome
      simp only [tally_cons, tally_nil, hop] at htally
      omega

theorem sendAlive_of_reachableUnder
    (h : (connection cfg sid).ReachableUnder (fun s e => live cfg sid s e = true) s) :
    SendAlive sid s := by
  induction h with
  | init h => exact sendAlive_of_atRest h.2
  | step hr hlive hs ih =>
    exact ih.step (staffed_of_reachable (reachable_of_connection hr)) hlive (step_cases hs)

/-- An idle channel that is awake is drained. -/
theorem SendAlive.drained (h : SendAlive sid s) (hidle : SendIdle sid s) :
    SendDrained (s.session sid) := by
  have hholds : tally Op.holds (s.ops sid) = 0 :=
    tally_eq_zero.mpr fun op hop => holds_of_not_sends (hidle.ops op hop)
  have hwakes : tally Op.wakes (s.ops sid) = 0 :=
    tally_eq_zero.mpr fun op hop => wakes_of_not_sends (hidle.ops op hop)
  have htokens := h.tokens
  rw [State.tokens, hidle.outstanding, hholds] at htokens
  have hmode : (s.session sid).ioMode = .nonSending := by
    cases hm : (s.session sid).ioMode with
    | nonSending => rfl
    | sending => rw [hm] at htokens; cases htokens
  refine ⟨hmode, ?_⟩
  by_contra hq
  exact (h.woken hmode hq).ne' hwakes

/-- **No lost wakeup.** On a live connection, a channel that no thread is sending on and that has no
`WSASend` outstanding has sent everything, and the next sender can take the token. -/
theorem drained_of_sendIdle
    (h : (connection cfg sid).ReachableUnder (fun s e => live cfg sid s e = true) s)
    (hidle : SendIdle sid s) :
    (s.session sid).ioMode = .nonSending ∧ (s.session sid).sendQ = [] :=
  have hdrained := (sendAlive_of_reachableUnder h).drained hidle
  ⟨hdrained.ioMode, hdrained.sendQ⟩

/-! ## A run -/

/-- Two threads send; the second finds the token taken, and the worker that handles the completion
of the first packet sends what the second left. -/
def twoSendersRun : List Event :=
  startRun ++ .sendPacket 3 none :: execs 3 4 ++ .sendPacket 4 none :: execs 4 2 ++ execs 3 5 ++
    .complete 0 1 [] :: .getQueuedCompletion 2 0 0 :: execs 2 14 ++
    .complete 0 1 [] :: .getQueuedCompletion 2 0 0 :: execs 2 10

theorem drained_of_sendIdle_twoSenders :
    ∃ s, (connection oneChannel 0).ReachableUnder (fun s e => live oneChannel 0 s e = true) s ∧
      s.nextSerial = 2 ∧ (s.session 0).ioMode = .nonSending ∧ (s.session 0).sendQ = [] := by
  obtain ⟨s, hs, hf⟩ := System.exists_reachableUnder (connection oneChannel 0) twoSendersRun
    (s := initialState oneChannel 2) (c := live oneChannel 0)
    (f := fun s => decide (SendIdle 0 s ∧ s.nextSerial = 2))
    ⟨.init ⟨2, rfl⟩, atRest_initial 2⟩ (by decide +kernel)
  obtain ⟨hidle, hserial⟩ := of_decide_eq_true hf
  exact ⟨s, hs, hserial, drained_of_sendIdle hs hidle⟩

end MultiLanClient

end DdingGameServer
