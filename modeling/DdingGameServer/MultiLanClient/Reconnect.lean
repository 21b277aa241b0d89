import DdingGameServer.MultiLanClient.References
/-!
# MultiLanClient — what a connection starts from

`Start` clears the send data of a session before its first `RecvPost`. `Reconnecter` clears
nothing: the new connection finds what the last one left. It is left clean in the runs in which
the token and the references come back by themselves: no `WSASend` fails, which would keep
`IOMode` at `SENDING` and the buffers counted; the last reference is given back with no part of a
packet in the ring; the account of references is kept; and nobody is in the middle of `SendPost`
when `Reconnecter` calls `RecvPost`.
-/

namespace DdingGameServer

namespace MultiLanClient

variable {cfg : Config} {s s' : State} {e : Event} {es : List Event} {sid : ℕ} {op : Op}
  {ok : Bool} {se : Session} {ids : List ℕ} {o : Outcome}

/-- **A session as a new connection should find it.** -/
structure Clean (se : Session) : Prop where
  ioMode : se.ioMode = .nonSending
  lBufferCount : se.lBufferCount = 0
  ioCount : se.ioCount = 0
  ringBuffer : se.ringBuffer = []

theorem clean_iff : Clean se ↔ se.ioMode = .nonSending ∧ se.lBufferCount = 0 ∧ se.ioCount = 0 ∧
    se.ringBuffer = [] :=
  ⟨fun ⟨h₁, h₂, h₃, h₄⟩ => ⟨h₁, h₂, h₃, h₄⟩, fun ⟨h₁, h₂, h₃, h₄⟩ => ⟨h₁, h₂, h₃, h₄⟩⟩

instance (se : Session) : Decidable (Clean se) := decidable_of_iff' _ clean_iff

/-- `Reconnecter` calls `RecvPost` on a clean session only. -/
def StartsClean (sid : ℕ) (s : State) (e : Event) : Prop :=
  ∀ ok, s.running sid e = some (.recvPost .reconnecter, ok) → Clean (s.session sid)

/-- The operation is the `RecvPost` of `Reconnecter`. -/
def Op.restarts : Op → Bool
  | .recvPost .reconnecter => true
  | _ => false

/-- What leaves the session clean: the account is kept, no `WSASend` fails, the last reference is
given back with an empty ring, and nobody holds the token in `SendPost` when `Reconnecter` calls
`RecvPost`. -/
def leavesClean (cfg : Config) (sid : ℕ) (s : State) (e : Event) : Bool :=
  match s.running sid e with
  | some (op, ok) =>
    let se := s.session sid
    op.balanced cfg se && !op.failsSend ok se &&
      (!(op.givesBack cfg ok se && se.ioCount == 1) || se.ringBuffer.isEmpty) &&
      (!op.restarts || tally Op.holds (s.ops sid) == 0)
  | none => true

/-- The parts of the condition, for the operation that runs. -/
structure LeavesClean (cfg : Config) (ok : Bool) (se : Session) (op : Op) : Prop where
  balanced : op.balanced cfg se = true
  sends : op.failsSend ok se = false
  ringBuffer : op.givesBack cfg ok se = true → se.ioCount = 1 → se.ringBuffer = []

theorem leavesClean_running (h : leavesClean cfg sid s e = true)
    (hrun : s.running sid e = some (op, ok)) :
    LeavesClean cfg ok (s.session sid) op ∧
      (op.restarts = true → tally Op.holds (s.ops sid) = 0) := by
  simp only [leavesClean, hrun, Bool.and_eq_true, Bool.or_eq_true, Bool.not_eq_true',
    Bool.and_eq_false_iff, beq_eq_false_iff_ne, beq_iff_eq, List.isEmpty_iff] at h
  obtain ⟨⟨⟨hbal, hsend⟩, hring⟩, htoken⟩ := h
  refine ⟨⟨hbal, hsend, fun hback hone => ?_⟩, fun hrestarts => ?_⟩
  · rcases hring with (hno | hno) | hring
    · exact nomatch hno.symm.trans hback
    · exact absurd hone hno
    · exact hring
  · rcases htoken with hno | hzero
    · exact nomatch hno.symm.trans hrestarts
    · exact hzero

theorem balanced_of_leavesClean (h : leavesClean cfg sid s e = true) :
    balanced cfg sid s e = true := by
  rw [balanced]
  split
  · rename_i hrun
    exact (leavesClean_running h hrun).1.balanced
  · rfl

theorem sendFails_of_leavesClean (h : leavesClean cfg sid s e = true) :
    sendFails sid s e = false := by
  rw [sendFails]
  split
  · rename_i hrun
    exact (leavesClean_running h hrun).1.sends
  · rfl

/-! ## The ring -/

/-- Nothing is left in the ring of a session nobody refers to: the bytes of a completion are added
by a worker, which has a reference. -/
theorem Exec.ringBuffer (h : Exec cfg ok sid se ids op o) (hC : LeavesClean cfg ok se op)
    (hrefs : (op.refs : ℤ) ≤ se.ioCount) (hpos : 0 ≤ se.ioCount)
    (hring : se.ioCount = 0 → se.ringBuffer = []) (hzero : o.session.ioCount = 0) :
    o.session.ringBuffer = [] := by
  have hlast : op.givesBack cfg ok se = true → se.ioCount - 1 = 0 → se.ringBuffer = [] :=
    fun hback hone => hC.ringBuffer hback (by omega)
  cases h with
  | sendFailed c b hfail | recvFailed c hfail => exact hlast (not_and_eq_true.mp hfail) hzero
  | ringFull c hfull => exact hlast (decide_eq_true hfull) hzero
  | workerEnded => exact hlast rfl hzero
  | recvHandled data =>
    simp only [Op.refs] at hrefs hzero
    omega
  | sendCounted | recvCounted =>
    dsimp only at hzero
    omega
  | _ => exact hring hzero

/-- **What is known of a session while every step leaves it clean.** -/
structure Restartable (cfg : Config) (sid : ℕ) (s : State) : Prop where
  reachable : (system cfg).Reachable s
  referenced : Referenced sid s
  tokens : s.tokens sid = (s.session sid).ioMode.taken
  ringBuffer : (s.session sid).ioCount = 0 → (s.session sid).ringBuffer = []

theorem restartable_initial (senders : ℕ) : Restartable cfg sid (initialState cfg senders) := by
  obtain ⟨-, hops⟩ := (staffed_initial cfg senders).fresh sid (Nat.zero_le _)
  refine ⟨.init ⟨senders, rfl⟩, referenced_initial senders, ?_, fun _ => rfl⟩
  rw [State.tokens, hops]
  rfl

theorem Restartable.step (h : Restartable cfg sid s) (hC : leavesClean cfg sid s e = true)
    (hstep : MultiLanClient.step cfg s e = some s') : Restartable cfg sid s' := by
  have hs := step_cases hstep
  have hst := staffed_of_reachable h.reachable
  refine ⟨.step h.reachable trivial hstep,
    h.referenced.step hst (balanced_of_leavesClean hC) hs,
    hs.tokens_eq hst (sendFails_of_leavesClean hC) h.tokens, fun hzero => ?_⟩
  cases hs.alters sid with
  | kept hse | sent _ _ _ _ _ hse | reconnecting _ _ _ _ hse =>
    rw [hse] at hzero ⊢
    exact h.ringBuffer hzero
  | started _ hse | finished _ hse | taken _ _ _ hse =>
    rw [hse] at hzero ⊢
    exact h.ringBuffer hzero
  | executed hi hsid hop ho hse hids hops =>
    have hmem := hops.mem_old List.mem_cons_self
    rw [hse] at hzero ⊢
    exact (execOp_cases ho).ringBuffer (leavesClean_running hC (running_eq hi hsid hop)).1
      (h.referenced.refs_le hmem) h.referenced.ioCount_nonneg h.ringBuffer hzero

/-- **`Reconnecter` finds the session clean.** -/
theorem Restartable.startsClean (h : Restartable cfg sid s)
    (hC : leavesClean cfg sid s e = true) : StartsClean sid s e := by
  intro ok hrun
  have hst := staffed_of_reachable h.reachable
  have hmem := mem_ops_of_running hrun
  have hio := h.referenced.ioCount_eq_zero hst hmem rfl rfl
  have hholds := (leavesClean_running hC hrun).2 rfl
  -- no overlapped operation is left, so the token is with nobody
  have houtstanding := h.referenced.ioCount
  rw [hio, Session.outstanding] at houtstanding
  have hposted : (s.session sid).posted = [] := List.length_eq_zero_iff.mp (by omega)
  have hcompleted : (s.session sid).completed = [] := List.length_eq_zero_iff.mp (by omega)
  have htokens := h.tokens
  rw [State.tokens, hholds, Session.sends, hposted, hcompleted] at htokens
  have hmode : (s.session sid).ioMode = .nonSending := by
    cases hm : (s.session sid).ioMode with
    | nonSending => rfl
    | sending => rw [hm] at htokens; cases htokens
  exact ⟨hmode, lBufferCount_eq_zero h.reachable hmode, hio, h.ringBuffer hio⟩

/-- **Every connection starts clean**, along every run whose steps leave the session clean. -/
theorem startsClean_of_leavesClean (hinit : (system cfg).Init s)
    (h : (system cfg).Meets (fun s e => leavesClean cfg sid s e = true) s es) :
    (system cfg).Meets (StartsClean sid) s es := by
  obtain ⟨senders, rfl⟩ := hinit
  exact h.of_invariant (P := Restartable cfg sid) (fun s e s' hP hC hs => hP.step hC hs)
    (fun s e hP hC => hP.startsClean hC) (restartable_initial senders)

/-- A packet is answered with a whole frame, the server closes the connection, and `Reconnecter`
connects the channel again. -/
def answeredRun : List Event :=
  startRun ++ .sendPacket 3 none :: execs 3 9 ++
    .complete 0 1 [] :: .getQueuedCompletion 2 0 0 :: execs 2 10 ++
    .complete 0 0 [1, 0, 9] :: .getQueuedCompletion 2 0 0 :: execs 2 5 ++
    .complete 0 0 [] :: .getQueuedCompletion 2 0 0 :: execs 2 8 ++ .reconnect 1 :: execs 1 6

theorem startsClean_answered : ∃ s,
    (system oneChannel).run (initialState oneChannel 2) answeredRun = some s ∧
      (s.session 0).connected = true ∧ s.reconnectIdList = [] ∧
      (system oneChannel).Meets (StartsClean 0) (initialState oneChannel 2) answeredRun := by
  obtain ⟨s, hm, hrun, hf⟩ := System.exists_run (system oneChannel) answeredRun
    (s := initialState oneChannel 2) (c := leavesClean oneChannel 0)
    (f := fun s => decide ((s.session 0).connected = true ∧ s.reconnectIdList = []))
    (by decide +kernel)
  obtain ⟨hconnected, hids⟩ := of_decide_eq_true hf
  exact ⟨s, hrun, hconnected, hids, startsClean_of_leavesClean ⟨2, rfl⟩ hm⟩

/-- **One byte of a packet received before the server closes the connection** is still in the ring
when `Reconnecter` calls `RecvPost` on the new one. -/
theorem not_startsClean_cutOff : ∃ s e, (system oneChannel).Reachable s ∧
    s.running 0 e = some (.recvPost .reconnecter, true) ∧ ¬ Clean (s.session 0) := by
  obtain ⟨s, hs, hf⟩ := System.exists_reachable (system oneChannel)
    (startRun ++ .complete 0 0 [5] :: .getQueuedCompletion 2 0 0 :: execs 2 5 ++
      .complete 0 0 [] :: .getQueuedCompletion 2 0 0 :: execs 2 8 ++ .reconnect 1 :: execs 1 2)
    (s := initialState oneChannel 2)
    (f := fun s => decide
      (s.running 0 (.exec 1 true) = some (.recvPost .reconnecter, true) ∧ ¬ Clean (s.session 0)))
    ⟨2, rfl⟩ (by decide +kernel)
  exact ⟨s, .exec 1 true, hs, of_decide_eq_true hf⟩

end MultiLanClient

end DdingGameServer
