import DdingGameServer.Common.Progress
/-!
# MultiLanClient — stopping the workers

`Stop` posts one packet to the completion port that is no completion of a session, and waits for all
workers. The worker that takes it posts one for the next and ends. But what it posts has no
overlapped structure either, and that is what a worker takes for a failed
`GetQueuedCompletionStatus`: it crashes the process. So `Stop` comes back where there is one worker,
and with two or more the workers crash.

`WaitForMultipleObjects` fails at once for no handle, or for more than `MAXIMUM_WAIT_OBJECTS`; then
the port is closed under the workers, whose calls come back without an overlapped structure.
Completions of sessions arrive at any time. What a worker does with one is a step here, which may
also end the process: `ReleaseSession` can free a buffer that was freed before, and a callback can
throw.
-/

namespace DdingGameServer

namespace MultiLanClient

namespace Stop

/-- What `GetQueuedCompletionStatus` hands to a worker, by `pSession` and `lpOverlapped`. -/
inductive Packet
  /-- A completion of a session. -/
  | completion
  /-- `(0, 0, 1)`, of `Stop`. -/
  | stop
  /-- `(0, 0, NULL)`, of a worker that ends. -/
  | null
  deriving DecidableEq, Repr

/-- **What has ended the process**, by a worker. -/
inductive Crash
  /-- `g_Dump.Crash()`, with no overlapped structure handed over. -/
  | noOverlapped
  /-- The handling of a completion. -/
  | handling
  deriving DecidableEq, Repr

/-- Where a worker is in `Worker`. -/
inductive WorkerAt
  /-- In `GetQueuedCompletionStatus`. -/
  | waiting
  | working
  | ended
  deriving DecidableEq, Repr

/-- Where the thread that stops the client is. -/
inductive StopAt
  | notCalled
  /-- In `WaitForMultipleObjects`. -/
  | waiting
  /-- Behind it, before `CloseHandle(m_hWorkerIOCP)`. -/
  | closing
  | returned
  deriving DecidableEq, Repr

/-- **The completion port and the workers.** -/
structure Client where
  /-- What is queued at `m_hWorkerIOCP`. -/
  queue : List Packet
  workers : List WorkerAt
  stop : StopAt
  crashed : Option Crash
  deriving DecidableEq, Repr

inductive ClientEvent
  /-- The kernel queues a completion. -/
  | complete
  /-- The `i`-th worker takes its next step; a completion is handled, or `ok` is `false`. -/
  | worker (i : ℕ) (ok : Bool)
  /-- The thread that stops the client does. -/
  | stop
  deriving DecidableEq, Repr

/-- `MAXIMUM_WAIT_OBJECTS`. -/
def maximumWaitObjects : ℕ := 64

namespace Client

variable (c : Client)

/-- `GetQueuedCompletionStatus`, and what `Worker` does first with what it hands over. On a closed
port it fails, without an overlapped structure. -/
def take (i : ℕ) : Option Client :=
  if c.stop = .returned then some { c with crashed := some .noOverlapped }
  else
    match c.queue with
    | [] => none
    | .completion :: queue => some { c with queue := queue, workers := c.workers.set i .working }
    -- `PostQueuedCompletionStatus(m_hWorkerIOCP, 0, 0, NULL)`, for the next worker
    | .stop :: queue => some { c with queue := queue ++ [.null], workers := c.workers.set i .ended }
    | .null :: queue => some { c with queue := queue, crashed := some .noOverlapped }

/-- `Worker`. -/
def workerStep (i : ℕ) (ok : Bool) : WorkerAt → Option Client
  | .waiting => c.take i
  | .working =>
    if ok then some { c with workers := c.workers.set i .waiting }
    else some { c with crashed := some .handling }
  | .ended => none

/-- `WaitForMultipleObjects` on the handles of the workers, which does not wait where it fails. -/
def waitOver : Bool :=
  c.workers.length = 0 ∨ maximumWaitObjects < c.workers.length ∨ ∀ w ∈ c.workers, w = .ended

/-- `Stop`. -/
def stopStep : Option Client :=
  match c.stop with
  | .notCalled => some { c with queue := c.queue ++ [.stop], stop := .waiting }
  | .waiting => if c.waitOver then some { c with stop := .closing } else none
  | .closing => some { c with stop := .returned }
  | .returned => none

/-- After a crash nothing happens. -/
def step (e : ClientEvent) : Option Client :=
  if c.crashed.isSome then none
  else
    match e with
    | .complete => if c.stop = .returned then none else
        some { c with queue := c.queue ++ [.completion] }
    | .worker i ok => (c.workers[i]?).bind (c.workerStep i ok)
    | .stop => c.stopStep

end Client

/-- **The client with `n` workers**, all of them running. -/
def client (n : ℕ) : System Client ClientEvent where
  Init c := c.workers.length = n ∧ (∀ w ∈ c.workers, w ≠ .ended) ∧
    (∀ p ∈ c.queue, p = .completion) ∧ c.stop = .notCalled ∧ c.crashed = none
  step := Client.step

variable {n i : ℕ} {ok : Bool} {c c' : Client} {e : ClientEvent} {w : WorkerAt}

/-! ## The invariant -/

/-- The workers that have ended. -/
def Client.ended (c : Client) : ℕ := c.workers.count .ended

/-- The packets of a kind that are queued. -/
def Client.queued (c : Client) (p : Packet) : ℕ := c.queue.count p

/-- A worker was handed no overlapped structure. -/
def Client.noOverlapped (c : Client) : Bool := c.crashed = some .noOverlapped

theorem Client.noOverlapped_of_eq_none (h : c.crashed = none) : c.noOverlapped = false := by
  simp [Client.noOverlapped, h]

/-- **Where the packet of `Stop` is**: not posted, queued, or taken by the one worker that has ended
and left another behind. In numbers: of the packets of `Stop` and those left behind, and of the
workers that have ended. -/
structure RelayedAt (n : ℕ) (place : StopAt) (crashed : Bool) (stop null ended : ℕ) : Prop where
  before : place = .notCalled → stop = 0 ∧ null = 0 ∧ ended = 0 ∧ crashed = false
  after : place ≠ .notCalled → crashed = false →
    stop = 1 ∧ null = 0 ∧ ended = 0 ∨ stop = 0 ∧ null = 1 ∧ ended = 1
  atMost : ended ≤ 1
  waited : place = .closing ∨ place = .returned → n = 0 ∨ maximumWaitObjects < n ∨ ended = n
  crash : crashed = true → 2 ≤ n

/-- The same of a client. -/
def Relayed (n : ℕ) (c : Client) : Prop :=
  c.workers.length = n ∧
    RelayedAt n c.stop c.noOverlapped (c.queued .stop) (c.queued .null) c.ended

/-- A worker that has not ended is beyond those that have. -/
theorem ended_lt (hw : c.workers[i]? = some w) (hne : w ≠ .ended) :
    c.ended < c.workers.length := by
  refine Nat.lt_of_le_of_ne List.count_le_length fun heq => ?_
  exact hne (List.count_eq_length.mp heq w (List.mem_of_getElem? hw)).symm

/-- A worker goes on and does not end. -/
theorem ended_set (w' : WorkerAt) (hw : c.workers[i]? = some w) (hne : w ≠ .ended)
    (hne' : w' ≠ .ended) : (c.workers.set i w').count .ended = c.ended := by
  obtain ⟨hi, hget⟩ := List.getElem?_eq_some_iff.mp hw
  rw [List.count_set hi, hget, Client.ended]
  simp [hne, hne']

/-- A worker ends. -/
theorem ended_set_ended (hw : c.workers[i]? = some w) (hne : w ≠ .ended) :
    (c.workers.set i .ended).count .ended = c.ended + 1 := by
  obtain ⟨hi, hget⟩ := List.getElem?_eq_some_iff.mp hw
  rw [List.count_set hi, hget, Client.ended]
  simp [hne]

theorem relayed_init (h : (client n).Init c) : Relayed n c := by
  obtain ⟨hlen, hworkers, hqueue, hstop, hcrashed⟩ := h
  have hended : c.ended = 0 := List.count_eq_zero.mpr fun hmem => hworkers _ hmem rfl
  have hqueued : ∀ p, p ≠ .completion → c.queued p = 0 := fun p hp =>
    List.count_eq_zero.mpr fun hmem => hp (hqueue p hmem)
  rw [Relayed, hstop, Client.noOverlapped_of_eq_none hcrashed, hended, hqueued .stop (by simp),
    hqueued .null (by simp)]
  exact ⟨hlen, fun _ => ⟨rfl, rfl, rfl, rfl⟩, fun hne => absurd rfl hne, Nat.zero_le 1,
    fun hwaited => by simp at hwaited, fun hc => by cases hc⟩

/-- **A worker that takes a packet.** -/
theorem Relayed.take (h : Relayed n c) (hnone : c.crashed = none)
    (hw : c.workers[i]? = some .waiting) (hs : c.take i = some c') : Relayed n c' := by
  have hlt := ended_lt hw (by simp)
  have hcrashed := Client.noOverlapped_of_eq_none hnone
  obtain ⟨hlen, h⟩ := h
  rw [hlen] at hlt
  unfold Client.take at hs
  split at hs
  · rename_i hreturned
    obtain rfl := Option.some.inj hs
    have hwaited := h.waited (.inr hreturned)
    refine ⟨hlen, fun hstop => ?_, fun _ hc => (by cases hc), h.atMost, h.waited, fun _ => ?_⟩
    · exact absurd (hreturned.symm.trans hstop) (by simp)
    · simp only [maximumWaitObjects] at hwaited
      omega
  · split at hs
    · cases hs
    · rename_i queue hqueue
      obtain rfl := Option.some.inj hs
      refine ⟨by simpa using hlen, ?_⟩
      have hended := ended_set .working hw (by simp) (by simp)
      simpa [Client.queued, Client.ended, Client.noOverlapped, hqueue, hended] using h
    · rename_i queue hqueue
      obtain rfl := Option.some.inj hs
      refine ⟨by simpa using hlen, ?_⟩
      have hended := ended_set_ended hw (by simp)
      simp only [Client.queued, hqueue, List.count_cons_self,
        List.count_cons_of_ne (by simp : Packet.stop ≠ .null)] at h
      have hplace : c.stop ≠ .notCalled := fun hp => by
        have := (h.before hp).1
        omega
      have hafter := h.after hplace hcrashed
      simp only [Client.queued, List.count_append]
      refine ⟨fun hp => absurd hp hplace, fun _ _ => .inr ?_, ?_, fun hwaited => ?_,
        fun hc => absurd (hcrashed.symm.trans hc) (by simp)⟩
      · simp only [Client.ended, hended] at hafter ⊢
        simp
        omega
      · simp only [Client.ended, hended] at hafter ⊢
        omega
      · have := h.waited hwaited
        simp only [Client.ended, hended] at hafter hlt this ⊢
        omega
    · rename_i queue hqueue
      obtain rfl := Option.some.inj hs
      refine ⟨hlen, ?_⟩
      simp only [Client.queued, hqueue, List.count_cons_self,
        List.count_cons_of_ne (by simp : Packet.null ≠ .stop)] at h
      have hplace : c.stop ≠ .notCalled := fun hp => by
        have := (h.before hp).2.1
        omega
      have hafter := h.after hplace hcrashed
      exact ⟨fun hp => absurd hp hplace, fun _ hc => (by cases hc), h.atMost, h.waited,
        fun _ => by omega⟩

/-- **The thread that stops the client.** -/
theorem Relayed.stopStep (h : Relayed n c) (hs : c.stopStep = some c') : Relayed n c' := by
  obtain ⟨hlen, h⟩ := h
  unfold Client.stopStep at hs
  split at hs
  · rename_i hplace
    obtain rfl := Option.some.inj hs
    have hbefore := h.before hplace
    refine ⟨hlen, fun hp => (by cases hp), fun _ _ => .inl ?_, h.atMost, fun hwaited => ?_, h.crash⟩
    · simp only [Client.queued] at hbefore ⊢
      simp only [List.count_append]
      refine ⟨?_, ?_, hbefore.2.2.1⟩ <;> simp <;> omega
    · simp at hwaited
  · rename_i hplace
    split at hs
    · rename_i hwait
      obtain rfl := Option.some.inj hs
      refine ⟨hlen, fun hp => (by cases hp), fun _ => h.after (by rw [hplace]; simp), h.atMost,
        fun _ => ?_, h.crash⟩
      rw [Client.waitOver, decide_eq_true_iff, hlen] at hwait
      refine hwait.imp_right (Or.imp_right fun hall => ?_)
      exact (List.count_eq_length.mpr fun w hw => (hall w hw).symm).trans hlen
    · cases hs
  · rename_i hplace
    obtain rfl := Option.some.inj hs
    exact ⟨hlen, fun hp => (by cases hp), fun _ => h.after (by rw [hplace]; simp), h.atMost,
      fun _ => h.waited (.inl hplace), h.crash⟩
  · cases hs

/-- **Every step keeps this.** -/
theorem Relayed.step (h : Relayed n c) (hs : c.step e = some c') : Relayed n c' := by
  unfold Client.step at hs
  split at hs
  · cases hs
  · rename_i hcrashed
    have hcrashed : c.crashed = none := by simpa using hcrashed
    cases e with
    | complete =>
      simp only at hs
      split at hs
      · cases hs
      · obtain rfl := Option.some.inj hs
        simpa [Relayed, Client.queued, Client.ended, Client.noOverlapped] using h
    | stop => exact h.stopStep hs
    | worker i ok =>
      obtain ⟨w, hw, hs⟩ := Option.bind_eq_some_iff.mp hs
      cases w with
      | waiting => exact h.take hcrashed hw hs
      | working =>
        cases ok with
        | true =>
          obtain rfl := Option.some.inj hs
          have hended := ended_set .waiting hw (by simp) (by simp)
          simpa [Relayed, Client.queued, Client.ended, Client.noOverlapped, hended] using h
        | false =>
          obtain rfl := Option.some.inj hs
          simpa [Relayed, Client.queued, Client.ended, Client.noOverlapped, hcrashed] using h
      | ended => cases hs

/-! ## Where it leads -/

/-- What the workers have to do before they come to the packet of `Stop`. -/
def Client.todo (c : Client) : ℕ :=
  2 * c.queue.length + c.queued .stop + c.workers.count .working

/-- **A worker that has not ended gets on**: there is something in the queue for it. -/
theorem Relayed.exists_workerStep (h : Relayed n c) (hcrashed : c.crashed = none)
    (hplace : c.stop ≠ .notCalled) (hw : c.workers[i]? = some w) (hne : w ≠ .ended) :
    ∃ c', c.step (.worker i true) = some c' ∧ c'.stop = c.stop ∧
      (c'.crashed = some .noOverlapped ∨ c'.crashed = none ∧ c'.todo < c.todo) := by
  have hstep : c.step (.worker i true) = c.workerStep i true w := by
    simp [Client.step, hcrashed, hw]
  obtain ⟨hi, hget⟩ := List.getElem?_eq_some_iff.mp hw
  rw [hstep]
  cases w with
  | ended => exact absurd rfl hne
  | working =>
    refine ⟨_, rfl, rfl, .inr ⟨hcrashed, ?_⟩⟩
    have hpos : 0 < c.workers.count .working := List.count_pos_iff.mpr (List.mem_of_getElem? hw)
    have hcount : (c.workers.set i .waiting).count .working + 1 = c.workers.count .working := by
      rw [List.count_set hi, hget, if_pos (by rfl), if_neg (by decide)]
      omega
    simp only [Client.todo, Client.queued]
    omega
  | waiting =>
    simp only [Client.workerStep, Client.take]
    by_cases hreturned : c.stop = .returned
    · rw [if_pos hreturned]
      exact ⟨_, rfl, rfl, .inl rfl⟩
    · rw [if_neg hreturned]
      have hafter := h.2.after hplace (Client.noOverlapped_of_eq_none hcrashed)
      cases hqueue : c.queue with
      | nil => simp [Client.queued, hqueue] at hafter
      | cons p queue =>
        cases p with
        | completion =>
          refine ⟨_, rfl, rfl, .inr ⟨hcrashed, ?_⟩⟩
          simp only [Client.todo, Client.queued, hqueue, List.count_set hi, hget]
          simp
          omega
        | stop =>
          refine ⟨_, rfl, rfl, .inr ⟨hcrashed, ?_⟩⟩
          simp only [Client.todo, Client.queued, hqueue, List.count_set hi, hget, List.count_append]
          simp
        | null => exact ⟨_, rfl, rfl, .inl rfl⟩

/-- A worker's step, which handles the completion it has. -/
def ClientEvent.ofWorker : ClientEvent → Prop
  | .worker _ ok => ok = true
  | _ => False

/-- Or one of the thread that stops the client. -/
def ClientEvent.own : ClientEvent → Prop
  | .complete => False
  | .worker _ ok => ok = true
  | .stop => True

/-- **Two workers or more crash** once `Stop` has posted its packet. -/
theorem Relayed.leads_to_crash (h : Relayed n c) (hn : 2 ≤ n) (hplace : c.stop ≠ .notCalled)
    (hhandling : c.crashed ≠ some .handling) :
    (client n).Leads ClientEvent.ofWorker (fun c => c.crashed = some .noOverlapped) c := by
  refine System.leads_of_measure
    (I := fun c => Relayed n c ∧ c.stop ≠ .notCalled ∧ c.crashed ≠ some .handling) Client.todo
    (fun c hc hnot => ?_) ⟨h, hplace, hhandling⟩
  obtain ⟨h, hplace, hhandling⟩ := hc
  have hcrashed : c.crashed = none := by
    cases hc : c.crashed with
    | none => rfl
    | some crash =>
      cases crash with
      | noOverlapped => exact absurd hc hnot
      | handling => exact absurd hc hhandling
  obtain ⟨w, hmem, hne⟩ : ∃ w ∈ c.workers, w ≠ .ended := by
    by_contra hall
    simp only [not_exists, not_and, not_not] at hall
    have hcount := List.count_eq_length.mpr fun w hw => (hall w hw).symm
    have := h.2.atMost
    rw [Client.ended, hcount, h.1] at this
    omega
  obtain ⟨i, hw⟩ := List.mem_iff_getElem?.mp hmem
  obtain ⟨c', hs, hstop, hless⟩ := h.exists_workerStep hcrashed hplace hw hne
  refine ⟨.worker i true, c', rfl, hs, ⟨h.step hs, hstop ▸ hplace, ?_⟩, hless.imp_right And.right⟩
  rcases hless with hc | ⟨hc, -⟩ <;> simp [hc]

/-- What the thread that stops the client has still to do. -/
def StopAt.todo : StopAt → ℕ
  | .notCalled => 6
  | .waiting => 2
  | .closing => 1
  | .returned => 0

/-- One worker is never handed a packet without an overlapped structure. -/
theorem Relayed.ne_noOverlapped (h : Relayed n c) (hn : n ≤ 1) : c.crashed ≠ some .noOverlapped :=
  fun hc => by
    have := h.2.crash (by simp [Client.noOverlapped, hc])
    omega

/-- **One worker, or none, lets `Stop` come back.** -/
theorem Relayed.leads_to_returned (h : Relayed n c) (hn : n ≤ 1) (hcrashed : c.crashed = none) :
    (client n).Leads ClientEvent.own (fun c => c.stop = .returned) c := by
  refine System.leads_of_measure (I := fun c => Relayed n c ∧ c.crashed = none)
    (fun c => c.todo + c.stop.todo) (fun c hc hnot => ?_) ⟨h, hcrashed⟩
  obtain ⟨h, hcrashed⟩ := hc
  have hstep : c.step .stop = c.stopStep := by simp [Client.step, hcrashed]
  -- the step of the thread that stops the client, where it does not wait
  have hown : ∀ c', c.stopStep = some c' → c'.crashed = none →
      c'.todo + c'.stop.todo < c.todo + c.stop.todo →
      ∃ e c', ClientEvent.own e ∧ (client n).step c e = some c' ∧
        (Relayed n c' ∧ c'.crashed = none) ∧
        (c'.stop = .returned ∨ c'.todo + c'.stop.todo < c.todo + c.stop.todo) :=
    fun c' hs hnone hlt =>
      ⟨.stop, c', trivial, hstep.trans hs, ⟨h.stopStep hs, hnone⟩, .inr hlt⟩
  cases hplace : c.stop with
  | returned => exact absurd hplace hnot
  | notCalled =>
    rw [← hplace]
    refine hown { c with queue := c.queue ++ [.stop], stop := .waiting }
      (by simp only [Client.stopStep, hplace]) hcrashed ?_
    simp only [Client.todo, Client.queued, StopAt.todo, hplace, List.count_append]
    simp
    omega
  | closing =>
    rw [← hplace]
    refine hown { c with stop := .returned } (by simp only [Client.stopStep, hplace]) hcrashed ?_
    simp [Client.todo, Client.queued, StopAt.todo, hplace]
  | waiting =>
    rw [← hplace]
    by_cases hwait : c.waitOver = true
    · refine hown { c with stop := .closing }
        (by simp only [Client.stopStep, hplace, if_pos hwait]) hcrashed ?_
      simp [Client.todo, Client.queued, StopAt.todo, hplace]
    · have hwait' : ¬ (c.workers.length = 0 ∨ maximumWaitObjects < c.workers.length ∨
          ∀ w ∈ c.workers, w = .ended) := by
        simpa only [Client.waitOver, decide_eq_true_iff] using hwait
      obtain ⟨w, hmem, hne⟩ : ∃ w ∈ c.workers, w ≠ .ended := by
        by_contra hall
        simp only [not_exists, not_and, not_not] at hall
        exact hwait' (.inr (.inr hall))
      obtain ⟨i, hw⟩ := List.mem_iff_getElem?.mp hmem
      obtain ⟨c', hs, hstop, hless⟩ :=
        h.exists_workerStep hcrashed (by rw [hplace]; simp) hw hne
      have h' := h.step hs
      rcases hless with hc | ⟨hnone, hlt⟩
      · exact absurd hc (h'.ne_noOverlapped hn)
      · refine ⟨.worker i true, c', rfl, hs, ⟨h', hnone⟩, .inr ?_⟩
        rw [hstop]
        omega

/-- **Stopping the client**, for any number of workers, at every state of a run. One worker, or
none: no worker is handed a packet without an overlapped structure, and unless a worker has ended
the process in the handling of a completion, `Stop` can be brought to come back. Two or more: once
it has posted its packet the workers come to crash on one, whatever completions arrive, unless the
handling of one has ended the process before; and where `WaitForMultipleObjects` takes all handles,
`Stop` never comes back. -/
theorem stop_of_reachable (h : (client n).Reachable c) :
    (n ≤ 1 → c.crashed ≠ some .noOverlapped ∧ (c.crashed = none →
      (client n).Leads ClientEvent.own (fun c => c.stop = .returned) c)) ∧
    (2 ≤ n → c.stop ≠ .notCalled → c.crashed ≠ some .handling →
      (client n).Leads ClientEvent.ofWorker (fun c => c.crashed = some .noOverlapped) c) ∧
    (2 ≤ n → n ≤ maximumWaitObjects → c.stop ≠ .closing ∧ c.stop ≠ .returned) := by
  have hkept : Relayed n c :=
    System.ReachableUnder.invariant (P := Relayed n) (fun _ => relayed_init)
      (fun _ _ _ ih _ hs => ih.step hs) h
  refine ⟨fun hn => ⟨hkept.ne_noOverlapped hn, hkept.leads_to_returned hn⟩,
    fun hn hplace => hkept.leads_to_crash hn hplace, fun hn hmax => ?_⟩
  have hwaited := hkept.2.waited
  have hmost := hkept.2.atMost
  refine ⟨fun hp => ?_, fun hp => ?_⟩
  · have := hwaited (.inl hp)
    omega
  · have := hwaited (.inr hp)
    omega

/-- Two workers, one of which has taken the packet; and one, which has handled a completion. -/
theorem stop_two : (∃ c, (client 2).Reachable c ∧ c.workers = [.ended, .waiting] ∧
      (client 2).Leads ClientEvent.ofWorker (fun c => c.crashed = some .noOverlapped) c) ∧
    ∃ c, (client 1).Reachable c ∧ c.workers = [.waiting] ∧
      (client 1).Leads ClientEvent.own (fun c => c.stop = .returned) c := by
  have htwo : (client 2).Init ⟨[.completion], [.waiting, .waiting], .notCalled, none⟩ := by
    refine ⟨rfl, ?_, ?_, rfl, rfl⟩ <;> decide
  have hone : (client 1).Init ⟨[.completion], [.waiting], .notCalled, none⟩ := by
    refine ⟨rfl, ?_, ?_, rfl, rfl⟩ <;> decide
  constructor
  · obtain ⟨c, hc, hf⟩ := System.exists_reachable (client 2)
      [.stop, .worker 1 true, .worker 0 true, .worker 1 true]
      (f := fun c => c.workers = [.ended, .waiting] ∧ c.stop = .waiting ∧ c.crashed = none) htwo
      (by decide)
    obtain ⟨hworkers, hstop, hcrashed⟩ := of_decide_eq_true hf
    exact ⟨c, hc, hworkers, (stop_of_reachable hc).2.1 (Nat.le_refl 2) (by rw [hstop]; simp)
      (by rw [hcrashed]; simp)⟩
  · obtain ⟨c, hc, hf⟩ := System.exists_reachable (client 1)
      [.worker 0 true, .worker 0 true, .stop]
      (f := fun c => c.workers = [.waiting] ∧ c.crashed = none) hone (by decide)
    obtain ⟨hworkers, hcrashed⟩ := of_decide_eq_true hf
    exact ⟨c, hc, hworkers, ((stop_of_reachable hc).1 (Nat.le_refl 1)).2 hcrashed⟩

end Stop

end MultiLanClient

end DdingGameServer
