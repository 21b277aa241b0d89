import DdingGameServer.Common.Progress
import DdingGameServer.RIOServer.Lifecycle
/-!
# RIOServer — how the server stops

`StopServer` joins the workers and does not wait for the accepter: what becomes of it depends on
where it was when the listening socket was closed. And `main` calls `StopServer` twice. The second
call joins threads that were joined, or deletes an array that was deleted, so that no server that
was started ever returns from `main`; but nothing keeps the first call from coming back.
-/

namespace DdingGameServer

namespace RIOServer

namespace Lifecycle

variable {n i j k : ℕ} {s s' : Server} {w w' : WorkerThread} {e : LifecycleEvent}

/-- The ends that the main thread has no part in, nor a queue that was not created: the accepter
crashes, or a worker with what it handles. -/
def Fault.Foreign (f : Fault) : Prop := f = .accepter ∨ ∃ i, f = .handling i

/-! ## The accepter when the socket is closed -/

/-- Where the accepter can be after it was at `a` when `listenSocket` was closed. -/
def Follows : AccepterAt → AccepterAt → Prop
  | .unstarted, a => a = .unstarted
  | .calling, a => a = .calling
  | .blocked, a => a = .blocked ∨ a = .ended
  | .making, a => a = .making ∨ a = .calling
  | .ended, _ => False

/-- **What the accepter was doing** when `listenSocket` was closed decides what becomes of it. -/
structure Accepts (s : Server) : Prop where
  before : s.listening = true → s.atClose = none ∧ s.accepter ≠ .ended
  after : s.listening = false → ∃ a, s.atClose = some a ∧ Follows a s.accepter
  fault : s.fault = some .accepter → s.atClose = some .making

theorem accepts_started : Accepts .started :=
  ⟨fun _ => ⟨rfl, by simp [Server.started]⟩, fun h => (by cases h), fun h => (by cases h)⟩

theorem accepts_notStarted : Accepts .notStarted :=
  ⟨fun _ => ⟨rfl, by simp [Server.notStarted, Server.started]⟩, fun h => (by cases h),
    fun h => (by cases h)⟩

/-- What leaves the accepter and the socket as they are leaves this. -/
theorem Accepts.congr (h : Accepts s) (hacc : s'.accepter = s.accepter)
    (hlist : s'.listening = s.listening) (hat : s'.atClose = s.atClose)
    (hfault : s'.fault ≠ some .accepter) : Accepts s' where
  before hl := by rw [hat, hacc]; exact h.before (hlist ▸ hl)
  after hl := by rw [hat, hacc]; exact h.after (hlist ▸ hl)
  fault hf := absurd hf hfault

/-- A session that finds no queue is one that was made when the socket was closed. -/
theorem atClose_of_crash (hsound : Sound n s) (h : Accepts s) (hn : 0 < n)
    (hmaking : s.accepter = .making) (hk : k < max 1 n)
    (hcrash : s.makeNewSession k = s.crash .accepter) : s.atClose = some .making := by
  cases hl : s.listening with
  | true =>
    rw [hsound.makeNewSession_of_listening hn hmaking hl hk] at hcrash
    have := congrArg Server.accepter hcrash
    rw [Server.crash, hmaking] at this
    cases this
  | false =>
    obtain ⟨a, ha, hfollows⟩ := h.after hl
    rw [hmaking] at hfollows
    cases a <;> simp [Follows] at hfollows
    exact ha

/-- **The two steps of the main thread that touch the accepter or its socket**; the others leave
both. -/
theorem mainStep_cases (hfault : s.fault = none) (hs : s.mainStep n = some s') :
    (s'.accepter = s.accepter ∧ s'.listening = s.listening ∧ s'.atClose = s.atClose ∧
      ∀ f ∈ s'.fault, ¬ f.Foreign) ∨
    (∃ i, s.main = .polling i ∧ s' = { s with main := .running, accepter := .calling }) ∨
    ∃ second, s.main = .stopping second .closesocket ∧ s' = { s with
      listening := false
      atClose := some (s.atClose.getD s.accepter)
      main := .stopping second .setStop } := by
  unfold Server.mainStep at hs
  split at hs
  · obtain rfl := Option.some.inj hs
    unfold Server.spawn
    split <;> exact .inl ⟨rfl, rfl, rfl, by simp [hfault]⟩
  · rename_i i hmain
    obtain rfl := Option.some.inj hs
    unfold Server.poll
    split
    · split <;> exact .inl ⟨rfl, rfl, rfl, by simp [hfault]⟩
    · exact .inr (.inl ⟨i, hmain, rfl⟩)
  · obtain rfl := Option.some.inj hs
    exact .inl ⟨rfl, rfl, rfl, by simp [hfault]⟩
  · rename_i second place hmain
    cases place with
    | closesocket => exact .inr (.inr ⟨second, hmain, (Option.some.inj hs).symm⟩)
    | setStop =>
      obtain rfl := Option.some.inj hs
      exact .inl ⟨rfl, rfl, rfl, by simp [hfault]⟩
    | joining i =>
      simp only [Server.stopServer, Server.join] at hs
      split at hs
      · obtain rfl := Option.some.inj hs
        exact .inl ⟨rfl, rfl, rfl, by simp [hfault]⟩
      · split at hs
        · obtain rfl := Option.some.inj hs
          exact .inl ⟨rfl, rfl, rfl, by simp [Server.crash, Fault.Foreign]⟩
        · split at hs
          · obtain rfl := Option.some.inj hs
            exact .inl ⟨rfl, rfl, rfl, by simp [Server.setWorker, hfault]⟩
          · cases hs
    | closing i =>
      obtain rfl := Option.some.inj hs
      unfold Server.closeQueue
      split
      · split
        · split
          · exact .inl ⟨rfl, rfl, rfl, by simp [Server.setWorker, hfault]⟩
          · exact .inl ⟨rfl, rfl, rfl, by simp [Server.crash, Fault.Foreign]⟩
        · exact .inl ⟨rfl, rfl, rfl, by simp [Server.crash, Fault.Foreign]⟩
      · exact .inl ⟨rfl, rfl, rfl, by simp [hfault]⟩
    | deletingCQList | deletingOnList =>
      simp only [Server.stopServer] at hs
      split at hs
      · obtain rfl := Option.some.inj hs
        exact .inl ⟨rfl, rfl, rfl, by simp [hfault]⟩
      · obtain rfl := Option.some.inj hs
        exact .inl ⟨rfl, rfl, rfl, by simp [Server.crash, Fault.Foreign]⟩
  · cases hs

/-- A worker leaves both. -/
theorem workerStep_accepter {ok : Bool} (hfault : s.fault = none)
    (hs : s.workerStep i w ok = some s') :
    s'.accepter = s.accepter ∧ s'.listening = s.listening ∧ s'.atClose = s.atClose ∧
      s'.fault ≠ some .accepter := by
  unfold Server.workerStep at hs
  split at hs
  · split at hs <;> obtain rfl := Option.some.inj hs
    · exact ⟨rfl, rfl, rfl, by simp [Server.setWorker, hfault]⟩
    · exact ⟨rfl, rfl, rfl, by simp [Server.crash]⟩
  · split at hs <;> obtain rfl := Option.some.inj hs
    · exact ⟨rfl, rfl, rfl, by simp [Server.setWorker, hfault]⟩
    · exact ⟨rfl, rfl, rfl, by simp [Server.crash]⟩
  · obtain rfl := Option.some.inj hs
    exact ⟨rfl, rfl, rfl, by simp [Server.setWorker, hfault]⟩
  · split at hs
    · split at hs <;> obtain rfl := Option.some.inj hs
      · exact ⟨rfl, rfl, rfl, by simp [Server.setWorker, hfault]⟩
      · exact ⟨rfl, rfl, rfl, by simp [Server.crash]⟩
    · obtain rfl := Option.some.inj hs
      exact ⟨rfl, rfl, rfl, by simp [Server.crash]⟩
  · cases hs

/-- The main thread starts the accepter and closes its socket. -/
theorem Accepts.mainStep (hsound : Sound n s ∨ Idle n s) (h : Accepts s) (hfault : s.fault = none)
    (hs : s.mainStep n = some s') : Accepts s' := by
  rcases mainStep_cases hfault hs with ⟨hacc, hl, hat, hf⟩ | ⟨i, hmain, rfl⟩ | ⟨second, -, rfl⟩
  · exact h.congr hacc hl hat fun hfault' => hf _ hfault' (.inl rfl)
  · rcases hsound with hsound | hidle
    · have hopen : s.listening = true := by rw [hsound.listening, hmain]; rfl
      exact ⟨fun _ => ⟨(h.before hopen).1, by simp⟩,
        fun hl => absurd (hopen.symm.trans hl) (by simp), fun hf => absurd hf (by simp [hfault])⟩
    · rcases hidle.comes with hc | ⟨hc, -⟩ | ⟨_, _, hc, -⟩ <;> rw [hmain] at hc <;> cases hc
  · refine ⟨fun hl => (by cases hl), fun _ => ?_, fun hf => absurd hf (by simp [hfault])⟩
    cases hl : s.listening with
    | true =>
      obtain ⟨hnone, hended⟩ := h.before hl
      refine ⟨s.accepter, by rw [hnone]; rfl, ?_⟩
      cases hacc : s.accepter with
      | ended => exact absurd hacc hended
      | blocked => exact .inl rfl
      | making => exact .inl rfl
      | unstarted | calling => rfl
    | false =>
      obtain ⟨a, ha, hfollows⟩ := h.after hl
      exact ⟨a, by rw [ha]; rfl, hfollows⟩

/-- **Every step of every thread keeps this.** -/
theorem Accepts.step (hsound : Sound n s ∨ Idle n s) (h : Accepts s) (hn : 0 < n)
    (hs : s.step n e = some s') : Accepts s' := by
  unfold Server.step at hs
  split at hs
  · rename_i hfault
    cases e with
    | main => exact h.mainStep hsound hfault hs
    | worker i ok =>
      simp only at hs
      split at hs
      · obtain ⟨hacc, hl, hat, hf⟩ := workerStep_accepter hfault hs
        exact h.congr hacc hl hat hf
      · cases hs
    | call =>
      simp only at hs
      split at hs
      · split at hs
        · rename_i hl
          obtain rfl := Option.some.inj hs
          exact ⟨fun _ => ⟨(h.before hl).1, by simp⟩,
            fun hl' => absurd (hl.symm.trans hl') (by simp), fun hf => absurd hf (by simp [hfault])⟩
        · obtain rfl := Option.some.inj hs
          exact h
      · cases hs
    | accepted | failed =>
      simp only at hs
      split at hs
      · rename_i hc
        obtain rfl := Option.some.inj hs
        exact ⟨fun _ => ⟨(h.before hc.2).1, by simp⟩,
          fun hl' => absurd (hc.2.symm.trans hl') (by simp), fun hf => absurd hf (by simp [hfault])⟩
      · cases hs
    | interrupted =>
      simp only at hs
      split at hs
      · rename_i hc
        obtain rfl := Option.some.inj hs
        refine ⟨fun hl' => absurd (hc.2.symm.trans hl') (by simp), fun _ => ?_,
          fun hf => absurd hf (by simp [hfault])⟩
        obtain ⟨a, ha, hfollows⟩ := h.after hc.2
        rw [hc.1] at hfollows
        cases a <;> simp [Follows] at hfollows
        exact ⟨.blocked, ha, .inr rfl⟩
      · cases hs
    | makeNewSession k =>
      simp only at hs
      split at hs
      · rename_i hc
        obtain rfl := Option.some.inj hs
        rcases makeNewSession_eq (s := s) (k := k) with heq | heq
        · rw [heq]
          refine ⟨fun hl => ⟨(h.before hl).1, by simp⟩, fun hl => ?_,
            fun hf => absurd hf (by simp [hfault])⟩
          obtain ⟨a, ha, hfollows⟩ := h.after hl
          rw [hc.1] at hfollows
          cases a <;> simp [Follows] at hfollows
          exact ⟨.making, ha, .inr rfl⟩
        · rcases hsound with hsound | hidle
          · have hat := atClose_of_crash hsound h hn hc.1 hc.2 heq
            rw [heq]
            exact ⟨h.before, h.after, fun _ => hat⟩
          · have := hidle.accepter
            rw [hc.1] at this
            cases this
      · cases hs
  · cases hs

/-- **What becomes of the accepter**, which nobody waits for: it ends only where it was blocked in
`accept` when `StopServer` closed the socket, and only where it was in `MakeNewSession` then does it
read a queue that is closed or deleted. Where it was between two calls of `accept`, it calls it
without end. -/
theorem accepter_of_reachable (h : (lifecycle n).Reachable s) (hn : 0 < n) :
    (s.accepter = .ended → s.atClose = some .blocked) ∧
      (s.fault = some .accepter → s.atClose = some .making) ∧
      (s.atClose = some .calling → s.accepter = .calling ∧ s.step n .call = some s ∨
        s.fault ≠ none) := by
  have hkept : (Sound n s ∨ Idle n s) ∧ Accepts s := by
    refine System.ReachableUnder.invariant (P := fun s => (Sound n s ∨ Idle n s) ∧ Accepts s)
      (fun s hs => ?_) (fun s e s' ih _ hs => ?_) h
    · rcases hs with rfl | rfl
      · exact ⟨.inl sound_started, accepts_started⟩
      · exact ⟨.inr idle_notStarted, accepts_notStarted⟩
    · exact ⟨ih.1.imp (fun ih => ih.step hs) (fun ih => ih.step hs), ih.2.step ih.1 hn hs⟩
  obtain ⟨-, hacc⟩ := hkept
  have hclosed : ∀ a, s.atClose = some a → s.listening = false := by
    intro a ha
    cases hl : s.listening with
    | false => rfl
    | true => exact absurd (ha.symm.trans (hacc.before hl).1) (by simp)
  refine ⟨fun hended => ?_, hacc.fault, fun hat => ?_⟩
  · cases hl : s.listening with
    | true => exact absurd hended (hacc.before hl).2
    | false =>
      obtain ⟨a, ha, hfollows⟩ := hacc.after hl
      rw [hended] at hfollows
      cases a <;> simp [Follows] at hfollows
      exact ha
  · have hl := hclosed _ hat
    obtain ⟨a, ha, hfollows⟩ := hacc.after hl
    obtain rfl : a = .calling := Option.some.inj (ha.symm.trans hat)
    have hcalling : s.accepter = .calling := hfollows
    by_cases hf : s.fault = none
    · exact .inl ⟨hcalling, by simp [Server.step, hf, hcalling, hl]⟩
    · exact .inr hf

/-- A session is made when the socket is closed, and the arrays are deleted before it is done. -/
theorem accepter_one : ∃ s, (lifecycle 1).Reachable s ∧ s.fault = some .accepter ∧
    s.atClose = some .making := by
  obtain ⟨s, hs, hf⟩ := System.exists_reachable (lifecycle 1)
    [.main, .main, .worker 0 true, .worker 0 true, .main, .main, .call, .accepted, .main, .main,
      .main, .worker 0 true, .main, .main, .main, .main, .main, .makeNewSession 0]
    (f := fun s => s.fault = some .accepter) (.inl rfl) (by decide)
  have hfault := of_decide_eq_true hf
  exact ⟨s, hs, hfault, (accepter_of_reachable hs Nat.one_pos).2.1 hfault⟩

/-! ## How the process ends -/

/-- What a worker has still to do when it is to stop. -/
def WorkerAt.todo : WorkerAt → ℕ
  | .creating => 4
  | .raising => 3
  | .dequeuing => 2
  | .checking => 1
  | .ended => 0

/-- What `StopServer` has. -/
def StopAt.todo (n : ℕ) : StopAt → ℕ
  | .closesocket => 2 * n + 8
  | .setStop => 2 * n + 7
  | .joining i => (n - i) + n + 5
  | .closing i => (n - i) + 4
  | .deletingCQList => 3
  | .deletingOnList => 2

/-- What the main thread has, with `started` workers. -/
def MainAt.todo (n started : ℕ) : MainAt → ℕ
  | .spawning => 6 * (n - started) + 5 * n + 24
  | .polling i => (n - i) + 4 * n + 23
  | .running => 4 * n + 20
  | .stopping false place => place.todo n + 2 * n + 10
  | .stopping true place => place.todo n
  | .returned => 0

/-- And all of them. -/
def Server.todo (n : ℕ) (s : Server) : ℕ :=
  tally (fun w => w.place.todo) s.workers + s.main.todo n s.workers.length

/-- A queue that was not created was used, or closed. -/
def Unopened (s : Server) : Prop :=
  ∃ (i : ℕ) (w : WorkerThread), s.workers[i]? = some w ∧ w.rioCQ = .invalid ∧
    (s.fault = some (.worker i) ∨ s.fault = some .closedNothing)

/-- **How the process ends**: it returns only where nothing was started, and no number of workers
was read. -/
def Ends (n : ℕ) (s : Server) : Prop :=
  if s.workerOnList = .null then
    if n = 0 then s.main = .returned else s.fault = some .closedNothing
  else s.fault = some (if n = 0 then .deletedTwice else .joinedTwice) ∨ Unopened s

theorem Sound.ends (h : Sound n s) (hf : s.fault ≠ none) (hown : ∀ f ∈ s.fault, ¬ f.Foreign) :
    Ends n s := by
  have hlist : s.workerOnList ≠ .null := by
    rw [h.workerOnList]
    unfold Allocation.of
    split <;> simp
  rw [Ends, if_neg hlist]
  obtain ⟨f, hfault⟩ := Option.ne_none_iff_exists'.mp hf
  have hnot := hown f hfault
  rw [Unopened, hfault]
  cases h.faults f hfault with
  | accepter => exact absurd (.inl rfl) hnot
  | handling i => exact absurd (.inr ⟨i, rfl⟩) hnot
  | used hw hinvalid => exact .inr ⟨_, _, hw, hinvalid, .inl rfl⟩
  | closed hw hinvalid => exact .inr ⟨_, _, hw, hinvalid, .inr rfl⟩
  | joinedTwice hn => exact .inl (by rw [if_neg (by omega)])
  | deletedTwice hn => exact .inl (by rw [if_pos hn])

theorem Idle.ends (h : Idle n s) (hf : s.fault ≠ none ∨ s.main = .returned) : Ends n s := by
  rw [Ends, if_pos h.workerOnList]
  rcases hf with hf | hmain
  · rcases h.faults with hnone | ⟨hc, hn, -⟩
    · exact absurd hnone hf
    · rw [if_neg (by omega)]
      exact hc
  · rcases h.comes with hc | ⟨-, hn⟩ | ⟨_, _, hc, -⟩
    · rw [hmain] at hc
      cases hc
    · rw [if_pos hn]
      exact hmain
    · rw [hmain] at hc
      cases hc

/-- A step of the main thread, or of a worker that comes back from what it handles. -/
def LifecycleEvent.own : LifecycleEvent → Prop
  | .main | .worker _ true => True
  | _ => False

/-- A worker that goes on to a place with less to do. -/
theorem todo_setWorker (hw : s.workers[i]? = some w) (hlt : w'.place.todo < w.place.todo) :
    (s.setWorker i w').todo n < s.todo n := by
  have hset := tally_set (f := fun w : WorkerThread => w.place.todo) (b := w') hw
  simp only [Server.todo, Server.setWorker, List.length_set]
  omega

/-- **A worker that is not at the head of its loop gets on**, and one that is when it is to stop. -/
theorem Sound.exists_workerStep (h : Sound n s) (hfault : s.fault = none)
    (hw : s.workers[i]? = some w) (hplace : w.place ≠ .ended)
    (hstop : w.place = .checking → s.serverStop = true) :
    ∃ s', s.step n (.worker i true) = some s' ∧
      (s'.fault = some (.worker i) ∨ s'.fault = none ∧ s'.todo n < s.todo n) := by
  obtain ⟨hcq, hon, -, -⟩ := h.running_of_not_ended hw hplace
  have hgoes : ∀ {w'}, w'.place.todo < w.place.todo → (s.setWorker i w').fault = none ∧
      (s.setWorker i w').todo n < s.todo n := fun hlt => ⟨hfault, todo_setWorker hw hlt⟩
  simp only [Server.step, if_pos hfault, hw]
  cases hp : w.place with
  | creating =>
    refine ⟨_, by simp [Server.workerStep, hp, hcq]; rfl, .inr (hgoes ?_)⟩
    rw [hp]
    exact Nat.lt_succ_self 3
  | raising =>
    refine ⟨_, by simp [Server.workerStep, hp, hon]; rfl, .inr (hgoes ?_)⟩
    rw [hp]
    exact show 1 < 3 by omega
  | checking =>
    refine ⟨_, by simp [Server.workerStep, hp, hstop hp]; rfl, .inr (hgoes ?_)⟩
    rw [hp]
    exact Nat.one_pos
  | dequeuing =>
    by_cases hopened : w.rioCQ = .opened
    · refine ⟨_, by simp [Server.workerStep, hp, hcq, hopened]; rfl, .inr (hgoes ?_)⟩
      rw [hp]
      exact Nat.lt_succ_self 1
    · exact ⟨s.crash (.worker i), by simp [Server.workerStep, hp, hopened], .inl rfl⟩
  | ended => exact absurd hp hplace

/-- A step of the main thread that leaves the workers has what its new place has. -/
theorem todo_lt {main : MainAt} (hlen : s'.workers = s.workers) (hmain : s'.main = main)
    (hlt : main.todo n s.workers.length < s.main.todo n s.workers.length) :
    s'.todo n < s.todo n := by
  rw [Server.todo, Server.todo, hlen, hmain]
  omega

/-- So has one that changes a worker and leaves it where it is. -/
theorem todo_lt_of_set {main : MainAt} (hw : s.workers[i]? = some w)
    (hset : s'.workers = s.workers.set i w') (hplace : w'.place = w.place) (hmain : s'.main = main)
    (hlt : main.todo n s.workers.length < s.main.todo n s.workers.length) :
    s'.todo n < s.todo n := by
  have htally := tally_set (f := fun w : WorkerThread => w.place.todo) (b := w') hw
  simp only [hplace] at htally
  rw [Server.todo, Server.todo, hset, hmain, List.length_set]
  omega

/-- **The main thread gets on** where no worker has anything to do. -/
theorem Sound.exists_mainStep (h : Sound n s)
    (hquiet : ∀ (i : ℕ) (w : WorkerThread), s.workers[i]? = some w →
      w.place = .ended ∨ w.place = .checking ∧ s.serverStop = false) :
    ∃ s', s.mainStep n = some s' ∧ (s'.fault ≠ none ∨ s'.todo n < s.todo n) := by
  have hcomes := h.comes
  have hcount := h.count
  cases hmain : s.main with
  | spawning =>
    refine ⟨s.spawn n, by simp [Server.mainStep, hmain], .inr ?_⟩
    unfold Server.spawn
    split
    · rename_i hlt
      simp only [Server.todo, tally_append, tally_cons, tally_nil, List.length_append,
        List.length_singleton, hmain, MainAt.todo, WorkerAt.todo]
      omega
    · refine todo_lt rfl rfl ?_
      rw [hmain]
      simp only [MainAt.todo]
      omega
  | polling i =>
    rw [hmain] at hcomes
    have hle : i ≤ n := hcomes
    refine ⟨s.poll i, by simp [Server.mainStep, hmain], .inr ?_⟩
    unfold Server.poll
    split
    · rename_i w hw
      have hlt : i < n := Nat.lt_of_lt_of_le (List.getElem?_eq_some_iff.mp hw).1 hcount
      have hon : w.on = true := by
        refine (h.workers i w hw).on.mpr ?_
        rcases hquiet i w hw with hp | ⟨hp, -⟩ <;> rw [hp] <;> simp
      rw [if_pos hon]
      refine todo_lt rfl rfl ?_
      rw [hmain]
      simp only [MainAt.todo]
      omega
    · refine todo_lt rfl rfl ?_
      rw [hmain]
      simp only [MainAt.todo]
      omega
  | running =>
    simp only [Server.mainStep, hmain]
    refine ⟨_, rfl, .inr (todo_lt rfl rfl ?_)⟩
    rw [hmain]
    simp only [MainAt.todo, StopAt.todo]
    omega
  | returned =>
    rw [hmain] at hcomes
    exact hcomes.elim
  | stopping second place =>
    simp only [Server.mainStep, hmain]
    cases place with
    | closesocket | setStop =>
      refine ⟨_, rfl, .inr (todo_lt rfl rfl ?_)⟩
      rw [hmain]
      cases second <;> simp only [MainAt.todo, StopAt.todo] <;> omega
    | joining i =>
      have hstop : s.serverStop = true := by
        rw [h.serverStop, hmain]
        cases second <;> rfl
      simp only [Server.stopServer, Server.join]
      split
      · refine ⟨_, rfl, .inr (todo_lt rfl rfl ?_)⟩
        rw [hmain]
        cases second <;> simp only [MainAt.todo, StopAt.todo] <;> omega
      · rename_i w hw
        have hlt : i < n := Nat.lt_of_lt_of_le (List.getElem?_eq_some_iff.mp hw).1 hcount
        have hended : w.place = .ended := by
          rcases hquiet i w hw with hp | ⟨-, hp⟩
          · exact hp
          · rw [hstop] at hp
            cases hp
        by_cases hjoinable : w.joinable = false
        · rw [if_pos hjoinable]
          exact ⟨_, rfl, .inl (by simp [Server.crash])⟩
        · rw [if_neg hjoinable, if_pos hended]
          refine ⟨_, rfl, .inr (todo_lt_of_set hw rfl rfl rfl ?_)⟩
          rw [hmain]
          cases second <;> simp only [MainAt.todo, StopAt.todo] <;> omega
    | closing i =>
      refine ⟨_, rfl, ?_⟩
      unfold Server.closeQueue
      split
      · split
        · rename_i w _ hw
          split
          · refine .inr (todo_lt_of_set hw rfl rfl rfl ?_)
            rw [hmain]
            cases second <;> simp only [MainAt.todo, StopAt.todo] <;> omega
          · exact .inl (by simp [Server.crash])
        · exact .inl (by simp [Server.crash])
      · refine .inr (todo_lt rfl rfl ?_)
        rw [hmain]
        cases second <;> simp only [MainAt.todo, StopAt.todo] <;> omega
    | deletingCQList =>
      simp only [Server.stopServer]
      split
      · refine ⟨_, rfl, .inr (todo_lt rfl rfl ?_)⟩
        rw [hmain]
        cases second <;> simp only [MainAt.todo, StopAt.todo] <;> omega
      · exact ⟨_, rfl, .inl (by simp [Server.crash])⟩
    | deletingOnList =>
      simp only [Server.stopServer]
      split
      · cases second <;> refine ⟨_, rfl, .inr (todo_lt rfl rfl ?_)⟩ <;> rw [hmain] <;>
          simp only [MainAt.todo, StopAt.todo, Bool.false_eq_true, if_true, if_false] <;> omega
      · exact ⟨_, rfl, .inl (by simp [Server.crash])⟩

/-- **And where nothing was started.** -/
theorem Idle.exists_mainStep (h : Idle n s) :
    s.main = .returned ∨
      ∃ s', s.mainStep n = some s' ∧ (s'.fault ≠ none ∨ s'.todo n < s.todo n) := by
  have hlen : s.workers.length = 0 := by rw [h.workers]; rfl
  rcases h.comes with hmain | ⟨hmain, -⟩ | ⟨second, place, hmain, hplace⟩
  · simp only [Server.mainStep, hmain]
    refine .inr ⟨_, rfl, .inr (todo_lt rfl rfl ?_)⟩
    rw [hmain]
    simp only [MainAt.todo, StopAt.todo]
    omega
  · exact .inl hmain
  · right
    simp only [Server.mainStep, hmain]
    rcases hplace with rfl | rfl | rfl | rfl | ⟨rfl, rfl | rfl⟩
    · refine ⟨_, rfl, .inr (todo_lt rfl rfl ?_)⟩
      rw [hmain]
      cases second <;> simp only [MainAt.todo, StopAt.todo] <;> omega
    · refine ⟨_, rfl, .inr (todo_lt rfl rfl ?_)⟩
      rw [hmain]
      cases second <;> simp only [MainAt.todo, StopAt.todo] <;> omega
    · simp only [Server.stopServer, Server.join, h.workers, List.getElem?_nil]
      refine ⟨_, rfl, .inr (todo_lt h.workers.symm rfl ?_)⟩
      rw [hmain]
      cases second <;> simp only [MainAt.todo, StopAt.todo] <;> omega
    · refine ⟨_, rfl, ?_⟩
      unfold Server.closeQueue
      split
      · simp only [h.rioCQList]
        exact .inl (by simp [Server.crash])
      · refine .inr (todo_lt rfl rfl ?_)
        rw [hmain]
        cases second <;> simp only [MainAt.todo, StopAt.todo] <;> omega
    · simp only [Server.stopServer, h.rioCQList, Server.delete]
      refine ⟨_, rfl, .inr (todo_lt rfl rfl ?_)⟩
      rw [hmain]
      cases second <;> simp only [MainAt.todo, StopAt.todo] <;> omega
    · simp only [Server.stopServer, h.workerOnList, Server.delete]
      cases second <;> refine ⟨_, rfl, .inr (todo_lt rfl rfl ?_)⟩ <;> rw [hmain] <;>
        simp only [MainAt.todo, StopAt.todo, Bool.false_eq_true, if_true, if_false] <;> omega

/-- **Some thread gets on**, whatever the accepter does. -/
theorem exists_ownStep (h : Sound n s ∨ Idle n s) (hfault : s.fault = none)
    (hmain : s.main ≠ .returned) :
    ∃ e s', e.own ∧ s.step n e = some s' ∧ (∀ f ∈ s'.fault, ¬ f.Foreign) ∧
      (s'.fault ≠ none ∨ s'.todo n < s.todo n) := by
  have hstep : s.step n .main = s.mainStep n := by simp only [Server.step, if_pos hfault]
  have hnot : ∀ {s'}, s.mainStep n = some s' → ∀ f ∈ s'.fault, ¬ f.Foreign := by
    intro s' hs
    rcases mainStep_cases hfault hs with ⟨-, -, -, hf⟩ | ⟨_, -, rfl⟩ | ⟨_, -, rfl⟩
    · exact hf
    · simp [hfault]
    · simp [hfault]
  rcases h with h | h
  · by_cases hquiet : ∀ (i : ℕ) (w : WorkerThread), s.workers[i]? = some w →
        w.place = .ended ∨ w.place = .checking ∧ s.serverStop = false
    · obtain ⟨s', hs, hless⟩ := h.exists_mainStep hquiet
      exact ⟨.main, s', trivial, hstep.trans hs, hnot hs, hless⟩
    · simp only [not_forall, not_or, not_and] at hquiet
      obtain ⟨i, w, hw, hplace, hchecking⟩ := hquiet
      obtain ⟨s', hs, hless⟩ := h.exists_workerStep hfault hw hplace
        (fun hp => by simpa using hchecking hp)
      refine ⟨.worker i true, s', trivial, hs, fun f hf => ?_, ?_⟩
      · rcases hless with hcrash | ⟨hnone, -⟩
        · obtain rfl : .worker i = f := Option.some.inj (hcrash.symm.trans hf)
          simp [Fault.Foreign]
        · exact nomatch hnone.symm.trans hf
      · exact hless.imp (fun hcrash => by simp [hcrash]) And.right
  · rcases h.exists_mainStep with hret | ⟨s', hs, hless⟩
    · exact absurd hret hmain
    · exact ⟨.main, s', trivial, hstep.trans hs, hnot hs, hless⟩

/-- **Stopping is never blocked**: the main thread and the workers alone bring the process to its
end. -/
theorem leads_to_ends (h : Sound n s ∨ Idle n s) (hfault : s.fault = none) :
    (lifecycle n).Leads LifecycleEvent.own (Ends n) s := by
  refine System.leads_of_measure (I := fun s => (Sound n s ∨ Idle n s) ∧
    (s.fault = none ∨ Ends n s)) (Server.todo n) (fun s hs hends => ?_) ⟨h, .inl hfault⟩
  obtain ⟨hkept, hf⟩ := hs
  have hfault := hf.resolve_right hends
  have hmain : s.main ≠ .returned := by
    intro hmain
    rcases hkept with hkept | hkept
    · have := hkept.comes
      rw [hmain] at this
      exact this
    · exact hends (hkept.ends (.inr hmain))
  obtain ⟨e, t, hown, ht, hnot, hless⟩ := exists_ownStep hkept hfault hmain
  have hkept' : Sound n t ∨ Idle n t := hkept.imp (fun h => h.step ht) (fun h => h.step ht)
  have hended : t.fault ≠ none → Ends n t := fun hf =>
    hkept'.elim (fun h => h.ends hf hnot) (fun h => h.ends (.inl hf))
  refine ⟨e, t, hown, ht, ⟨hkept', ?_⟩, hless.imp_left hended⟩
  by_cases hf : t.fault = none
  · exact .inl hf
  · exact .inr (hended hf)

/-- **How the process ends**, in every run: by `join` on a thread that was joined in the first
`StopServer` or, where there are no workers, by deleting an array again; where nothing was started,
by reading an array that is not there, or by a return if no number of workers was read; where a
queue was not created, perhaps by a use of it. There is no other end, unless the accepter crashes or
a worker does not come back from what it handles; and the main thread and workers that do come back
bring every run to it. -/
theorem ends_of_reachable (h : (lifecycle n).Reachable s) :
    (s.main = .returned ∨ s.fault ≠ none →
      Ends n s ∨ s.fault = some .accepter ∨ ∃ i, s.fault = some (.handling i)) ∧
      (s.fault = none → (lifecycle n).Leads LifecycleEvent.own (Ends n) s) := by
  have hkept := sound_or_idle h
  refine ⟨fun hend => ?_, leads_to_ends hkept⟩
  by_cases hforeign : s.fault = some .accepter ∨ ∃ i, s.fault = some (.handling i)
  · exact .inr hforeign
  · left
    have hnot : ∀ f ∈ s.fault, ¬ f.Foreign := by
      rintro f hf (rfl | ⟨i, rfl⟩)
      · exact hforeign (.inl hf)
      · exact hforeign (.inr ⟨i, hf⟩)
    rcases hkept with hkept | hkept
    · refine hkept.ends (hend.resolve_left fun hmain => ?_) hnot
      have := hkept.comes
      rw [hmain] at this
      exact this
    · exact hkept.ends hend.symm

/-- A server that was started with one worker is brought to its end. -/
theorem ends_one : (lifecycle 1).Leads LifecycleEvent.own (Ends 1) .started :=
  (ends_of_reachable (.init (.inl rfl))).2 rfl

end Lifecycle

end RIOServer

end DdingGameServer
