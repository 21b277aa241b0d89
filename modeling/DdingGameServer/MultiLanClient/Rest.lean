import DdingGameServer.Common.History
import DdingGameServer.MultiLanClient.Wakeup
import DdingGameServer.MultiLanClient.Work
/-!
# MultiLanClient — a client that is left alone comes to rest

No packet is sent any more, the kernel finishes nothing and refuses no receive. What the threads can
still do then is bounded by what was left to do (`work_of_run`), and where it ends no packet is left
behind: a queue that is not empty belongs to a channel in `SENDING`, whose send is at the kernel, or
was lost to a `WSASend` that failed. `Reconnecter` may be trying to connect, which the server has to
answer. None of this asks that a connection is live or that a session is released once.

A `Reconnecter` that gets no socket, or cannot set its option, returns and leaves the list as it is;
then lost sessions wait for ever. So the runs here are those where this does not happen
(`State.socketMade`).
-/

namespace DdingGameServer

namespace MultiLanClient

variable {cfg : Config} {s s' : State} {e : Event} {sid : ℕ} {t : Thread} {failed : Bool}

/-- `Reconnecter` gets its socket, and sets the option of one it has connected: a `false` there is a
failure. -/
def State.socketMade (s : State) : Event → Bool
  | .exec i ok => ok || s.threads[i]?.all fun t =>
      t.op != some .newSocket && t.op != some .connect
  | _ => true

/-- A step that needs nothing from outside. -/
def State.quiet (s : State) : Event → Bool
  | .exec i ok => ok && s.threads[i]?.any fun t => t.op != some .connect
  | .getQueuedCompletion _ _ _ | .reconnect _ => true
  | _ => false

/-- No such step is left. -/
def Quiescent (cfg : Config) (s : State) : Prop := ∀ e, s.quiet e = true → step cfg s e = none

/-- A `WSASend` of the session `sid` has failed. -/
def sendFailed (sid : ℕ) (failed : Bool) (s : State) (e : Event) : Bool :=
  failed || sendFails sid s e

/-- **A client at rest**, and the channel `sid` of it. -/
structure Rested (cfg : Config) (sid : ℕ) (s : State) (failed : Bool) : Prop where
  waiting : ∀ t ∈ s.threads, t.op = none ∨ t.op = some .connect
  /-- Every lost session has been taken up, or `Reconnecter` waits for one. -/
  list : s.reconnectIdList ≠ [] → ∃ t ∈ s.threads, t.op = some .connect
  completed : 0 < cfg.numOfWorkerThread → ∀ sid, (s.session sid).completed = []
  /-- No packet is left behind. -/
  sent : (s.session sid).sendQ ≠ [] → (s.session sid).ioMode = .sending
  kernel : failed = false → (s.session sid).ioMode = .sending → 0 < (s.session sid).sends

/-! ## Who is there -/

/-- There is a `Reconnecter`, and there are the workers that the option file asks for. -/
structure Manned (cfg : Config) (s : State) : Prop where
  reconnecter : .reconnecter ∈ s.threads.map Thread.role
  worker : 0 < cfg.numOfWorkerThread → .worker ∈ s.threads.map Thread.role

/-- The threads keep their roles. -/
theorem Step.map_role (h : Step cfg s e s') (hst : Staffed cfg s) :
    s'.threads.map Thread.role = s.threads.map Thread.role := by
  cases h.moved hst.role with
  | none hthreads => rw [hthreads]
  | @one i t sid op hi hthreads =>
    obtain ⟨hlt, rfl⟩ := List.getElem?_eq_some_iff.mp hi
    have hlt' : i < (s.threads.map Thread.role).length := by simpa using hlt
    rw [hthreads, List.map_set, ← List.getElem_map Thread.role (h := hlt'), List.set_getElem_self]

theorem manned_of_reachable (h : (system cfg).Reachable s) : Manned cfg s := by
  refine reachable_of_step (C := fun _ _ => True) (P := Manned cfg) (fun senders => ?_)
    (fun s e s' hr hm _ hs => ?_) h
  · refine ⟨by simp [initialState, Thread.idle], fun hpos => ?_⟩
    simp [initialState, Thread.idle, hpos.ne']
  · have hroles := hs.map_role (staffed_of_reachable hr)
    exact ⟨hroles ▸ hm.reconnecter, fun hpos => hroles ▸ hm.worker hpos⟩

/-! ## Nobody sleeps over a packet -/

/-- **What keeps a channel awake**, whatever becomes of its connection. -/
structure Awake (sid : ℕ) (s : State) (failed : Bool) : Prop where
  /-- The token is out with a holder, at hand, or lost to a failed `WSASend`. -/
  tokens : failed = false → s.tokens sid = (s.session sid).ioMode.taken
  /-- If it is at hand, somebody will ask for it before anything is left over. -/
  woken : (s.session sid).ioMode = .nonSending → (s.session sid).sendQ ≠ [] →
    0 < tally Op.wakes (s.ops sid)

theorem Awake.step (h : Awake sid s failed) (hst : Staffed cfg s) (hs : Step cfg s e s') :
    Awake sid s' (sendFailed sid failed s e) := by
  refine ⟨fun hfailed => ?_, fun hmode hq => ?_⟩
  · obtain ⟨hbefore, hfails⟩ := Bool.or_eq_false_iff.mp hfailed
    exact hs.tokens_eq hst hfails (h.tokens hbefore)
  have hkept : ∀ {old new}, Replaces old new (s.ops sid) (s'.ops sid) →
      tally Op.wakes old ≤ tally Op.wakes new → 0 < tally Op.wakes (s.ops sid) →
      0 < tally Op.wakes (s'.ops sid) := by
    intro old new hops hle hpos
    have := hops.tally_eq Op.wakes
    omega
  cases hs.alters sid with
  | kept hse hops =>
    rw [hops]
    exact h.woken (hse ▸ hmode) (hse ▸ hq)
  | started hid hse hops =>
    obtain ⟨hnew, -⟩ := hst.fresh sid (hid ▸ le_rfl)
    exact absurd (by rw [hse, hnew]; rfl) hq
  | sent _ _ _ _ _ hse _ hops | reconnecting _ _ _ _ hse hops =>
    exact hkept hops (Nat.zero_le _) (h.woken (hse ▸ hmode) (hse ▸ hq))
  | finished hr hse hops =>
    rw [hops]
    exact h.woken (by rwa [hse] at hmode) (by rwa [hse] at hq)
  | taken _ _ hc hse hops =>
    exact hkept hops (Nat.zero_le _) (h.woken (by rwa [hse] at hmode) (by rwa [hse] at hq))
  | executed hi hsid hop ho hse hids hops =>
    rcases (execOp_cases ho).woken (hse ▸ hmode) (hse ▸ hq) with hnext | ⟨hop, hnon, hsome⟩
    · have hle := le_tally_of_mem (f := Op.wakes) (hops.mem_old List.mem_cons_self)
      have := hops.tally_eq Op.wakes
      simp only [tally_cons, tally_nil] at this
      omega
    · refine hkept hops ?_ (h.woken hnon hsome)
      simp only [tally_cons, tally_nil, hop]
      exact Nat.zero_le _

/-! ## At rest -/

theorem Quiescent.waiting (h : Quiescent cfg s) (hc : s.crashed = false) (ht : t ∈ s.threads) :
    t.op = none ∨ t.op = some .connect := by
  obtain ⟨i, hi⟩ := List.mem_iff_getElem?.mp ht
  by_contra hcon
  push Not at hcon
  obtain ⟨op, hop⟩ := Option.ne_none_iff_exists'.mp hcon.1
  have hnone := h (.exec i true) (by simpa [State.quiet, hi] using hcon.2)
  simp [step, hc, hi, exec, hop] at hnone

/-- A worker does not wait for the server. -/
theorem Quiescent.op_eq_none (h : Quiescent cfg s) (hc : s.crashed = false) (hst : Staffed cfg s)
    (ht : t ∈ s.threads) (hrole : t.role ≠ .reconnecter) : t.op = none := by
  rcases h.waiting hc ht with hop | hop
  · exact hop
  · exact absurd (hst.role t ht _ hop).symm hrole

/-- **Where no step is left, the client is at rest.** -/
theorem Quiescent.rested (h : Quiescent cfg s) (hc : s.crashed = false) (hst : Staffed cfg s)
    (hm : Manned cfg s) (ha : Awake sid s failed) : Rested cfg sid s failed := by
  have hops : ∀ {f : Op → ℕ}, f .connect = 0 → tally f (s.ops sid) = 0 := by
    intro f hf
    refine tally_eq_zero.mpr fun op hop => ?_
    obtain ⟨t, ht, -, htop⟩ := mem_ops.mp hop
    rcases h.waiting hc ht with hnone | hconnect
    · exact nomatch htop.symm.trans hnone
    · obtain rfl := Option.some.inj (htop.symm.trans hconnect)
      exact hf
  refine ⟨fun t ht => h.waiting hc ht, fun hlist => ?_, fun hpos sid => ?_, fun hq => ?_,
    fun hfailed hmode => ?_⟩
  · -- an idle `Reconnecter` would take up the front of the list
    obtain ⟨t, ht, hrole⟩ := List.mem_map.mp hm.reconnecter
    refine ⟨t, ht, (h.waiting hc ht).resolve_left fun hidle => ?_⟩
    obtain ⟨i, hi⟩ := List.mem_iff_getElem?.mp ht
    obtain ⟨front, rest, heq⟩ := List.exists_cons_of_ne_nil hlist
    have hnone := h (.reconnect i) rfl
    simp [step, hc, hi, reconnect, hrole, hidle, heq] at hnone
  · -- an idle worker would take the completion
    obtain ⟨t, ht, hrole⟩ := List.mem_map.mp (hm.worker hpos)
    obtain ⟨i, hi⟩ := List.mem_iff_getElem?.mp ht
    have hidle := h.op_eq_none hc hst ht (by simp [hrole])
    cases hcompleted : (s.session sid).completed with
    | nil => rfl
    | cons c completed =>
      have hnone := h (.getQueuedCompletion i sid 0) rfl
      simp [step, hc, hi, getQueuedCompletion, hrole, hidle, hcompleted] at hnone
  · cases hmode : (s.session sid).ioMode with
    | sending => rfl
    | nonSending =>
      have := ha.woken hmode hq
      rw [hops rfl] at this
      exact absurd this (lt_irrefl 0)
  · have htokens := ha.tokens hfailed
    rw [State.tokens, hops rfl, hmode] at htokens
    exact Nat.lt_of_lt_of_eq Nat.one_pos htokens.symm

/-! ## Whole runs -/

theorem socketMade_of_quiet (h : s.quiet e = true) : s.socketMade e = true := by
  cases e with
  | exec i ok => exact Bool.or_eq_true_iff.mpr (.inl (Bool.and_eq_true_iff.mp h).1)
  | _ => rfl

/-- Where the kernel says yes nothing is refused. -/
theorem refused_true (op : Op) : op.refused true = false := by
  cases op with
  | wsaRecv c => cases c <;> rfl
  | _ => rfl

/-- A quiet step is a thread's, and costs nothing. -/
theorem quiet_free (h : s.quiet e = true) : [e].countP Event.own = 1 ∧ s.price e = 0 := by
  cases e with
  | exec i ok =>
    obtain ⟨rfl, -⟩ := Bool.and_eq_true_iff.mp h
    refine ⟨rfl, ?_⟩
    have hnone : (s.threads[i]?.any fun t => t.op.any (Op.refused true)) = false := by
      cases s.threads[i]? with
      | none => rfl
      | some t => cases hop : t.op <;> simp [hop, refused_true]
    rw [State.price, hnone]
    rfl
  | getQueuedCompletion | reconnect => exact ⟨rfl, rfl⟩
  | _ => cases h

/-- **The client, with a record of whether a `WSASend` of the session `sid` has failed.** -/
def sendRecorded (cfg : Config) (sid : ℕ) : System (State × Bool) Event :=
  (system cfg).recorded false (sendFailed sid)

variable {x x' : State × Bool}

theorem awake_of_reachable (h : (sendRecorded cfg sid).Reachable x) : Awake sid x.1 x.2 := by
  refine System.ReachableUnder.recorded_invariant (P := Awake sid) ?_
    (fun s failed e s' hr hP _ hs => hP.step (staffed_of_reachable hr) (step_cases hs)) h
  rintro s ⟨senders, rfl⟩
  have halive : SendAlive sid (initialState cfg senders) :=
    sendAlive_of_atRest (atRest_initial senders)
  exact ⟨fun _ => halive.tokens, halive.woken⟩

/-- What the runs have reached in which `Reconnecter` always gets its socket. -/
def Connecting (cfg : Config) (sid : ℕ) (x : State × Bool) : Prop :=
  (sendRecorded cfg sid).ReachableUnder (fun x e => x.1.socketMade e = true) x

/-- A quiet step leaves less to do. -/
theorem work_lt_of_quiet (h : Connecting cfg sid x) (hquiet : x.1.quiet e = true)
    (hs : (sendRecorded cfg sid).step x e = some x') :
    Connecting cfg sid x' ∧ x'.1.work cfg < x.1.work cfg := by
  have hwork := work_step h.reachable.of_recorded (System.recorded_step_eq_some.mp hs).1
  obtain ⟨hown, hprice⟩ := quiet_free hquiet
  exact ⟨.step h (socketMade_of_quiet hquiet) hs, by omega⟩

/-- **A client that is left alone comes to rest, and leaves no packet behind**, as long as
`Reconnecter` gets its sockets. From every state that such a run reaches, whatever connections were
lost before and however often they were released, the steps that need nothing from outside lead to
where none is left, and there are never more of them than work was left, in whatever order they
come. Where none is left, unless the client has crashed, every thread is idle, or is `Reconnecter`
trying to connect; an id is on the list only while it is; where there are workers, no completion is
left; and if there are packets in the queue of a channel, its `IOMode` is `SENDING`, with the send
at the kernel unless a `WSASend` of it has failed. -/
theorem rested_of_reachable
    (h : (sendRecorded cfg sid).ReachableUnder (fun x e => x.1.socketMade e = true) x) :
    (∃ es x', (sendRecorded cfg sid).Meets (fun x e => x.1.quiet e = true) x es ∧
      (sendRecorded cfg sid).run x es = some x' ∧ Quiescent cfg x'.1) ∧
    ∀ es x', (sendRecorded cfg sid).Meets (fun x e => x.1.quiet e = true) x es →
      (sendRecorded cfg sid).run x es = some x' → es.length ≤ x.1.work cfg ∧
        (Quiescent cfg x'.1 → x'.1.crashed = true ∨ Rested cfg sid x'.1 x'.2) := by
  have hstep : ∀ x e x', Connecting cfg sid x → x.1.quiet e = true →
      (sendRecorded cfg sid).step x e = some x' →
      Connecting cfg sid x' ∧ x'.1.work cfg < x.1.work cfg :=
    fun _ _ _ => work_lt_of_quiet
  refine ⟨?_, fun es x' hes hr => ⟨?_, fun hquiescent => ?_⟩⟩
  · obtain ⟨es, x', hes, hr, hend⟩ :=
      System.exists_stuck_of_measure (fun x : State × Bool => x.1.work cfg) hstep h
    exact ⟨es, x', hes, hr, fun e he => Option.map_eq_none_iff.mp (hend e he)⟩
  · have := hes.length_le (fun x : State × Bool => x.1.work cfg) hstep hr h
    omega
  · have h' := h.reachable.of_run System.meets_true hr
    have hreach : (system cfg).Reachable x'.1 := h'.of_recorded
    cases hc : x'.1.crashed with
    | true => exact .inl rfl
    | false =>
      exact .inr (hquiescent.rested hc (staffed_of_reachable hreach) (manned_of_reachable hreach)
        (awake_of_reachable h'))

/-- A packet is sent while its channel is lost: the client comes to rest within 3275 steps. -/
theorem rested_lost : ∃ x,
    (sendRecorded oneChannel 0).ReachableUnder (fun x e => x.1.socketMade e = true) x ∧
    (x.1.reconnectIdList = [0] ∧ x.1.work oneChannel = 3275) ∧
    ∃ es x', es.length ≤ 3275 ∧ (sendRecorded oneChannel 0).run x es = some x' ∧
      Quiescent oneChannel x'.1 ∧ (x'.1.crashed = true ∨ Rested oneChannel 0 x'.1 x'.2) := by
  obtain ⟨x, hreach, hx⟩ := System.exists_reachableUnder (sendRecorded oneChannel 0)
    (lostRun ++ [.sendPacket 3 (some 7)]) (s := (initialState oneChannel 1, false))
    (c := fun x e => x.1.socketMade e)
    (f := fun x => decide (x.1.reconnectIdList = [0] ∧ x.1.work oneChannel = 3275))
    ⟨⟨1, rfl⟩, rfl⟩ (by decide +kernel)
  have hx := of_decide_eq_true hx
  obtain ⟨⟨es, x', hes, hr, hrest⟩, hall⟩ := rested_of_reachable hreach
  obtain ⟨hle, hrested⟩ := hall es x' hes hr
  exact ⟨x, hreach, hx, es, x', hx.2 ▸ hle, hr, hrest, hrested hrest⟩

end MultiLanClient

end DdingGameServer
