import DdingGameServer.Common.System
import DdingGameServer.Common.Tally
/-!
# RIOServer — starting and stopping the threads

`main` starts the server, waits for the escape key and stops the server, twice: once in its loop and
once after it. `RunThreads` starts the workers, waits until each has asked for its completion queue,
and then starts the accepter. `StopServer` closes the listening socket, joins the workers, closes
their queues and deletes the two arrays; it does not wait for the accepter. Any number of workers,
and every order of the steps of all threads.

Nobody looks at what `RIOCreateCompletionQueue` answers. A queue that was not created is one that
`RIOCreateRequestQueue` refuses, so that no session is made on it; `RIODequeueCompletion` and
`RIOCloseCompletionQueue` are taken to crash on it, as on a queue that is closed. A worker that
handles completions may come to an exception that nobody catches, or crash in a handler.

A write of one thread is seen by the others at once. A crash ends the process: no step leaves a
state with a fault. `accept` is taken to fail with `WSAEINTR` where the socket is closed under a
call of it, and with another error on a closed socket.
-/

namespace DdingGameServer

namespace RIOServer

namespace Lifecycle

/-- An entry of `rioCQList`. -/
inductive Queue
  | absent
  | opened
  /-- `RIO_INVALID_CQ`. -/
  | invalid
  | closed
  deriving DecidableEq, Repr

/-- Where a worker is in `Worker`. -/
inductive WorkerAt
  /-- At `RIOCreateCompletionQueue`. -/
  | creating
  /-- At `workerOnList[inThreadId] = true`. -/
  | raising
  /-- At the head of the loop. -/
  | checking
  /-- In the body, at `RIODequeueCompletion` and what it gives. -/
  | dequeuing
  | ended
  deriving DecidableEq, Repr

/-- **A worker thread**, with its entries of `rioCQList` and `workerOnList`. -/
structure WorkerThread where
  place : WorkerAt
  joinable : Bool
  rioCQ : Queue
  on : Bool
  deriving DecidableEq, Repr

/-- Where the accepter is in `Accepter`. -/
inductive AccepterAt
  | unstarted
  /-- Before `accept`. -/
  | calling
  /-- In it. -/
  | blocked
  /-- In `MakeNewSession`. -/
  | making
  | ended
  deriving DecidableEq, Repr

/-- Where the main thread is in `StopServer`. -/
inductive StopAt
  | closesocket
  | setStop
  | joining (i : ℕ)
  | closing (i : ℕ)
  | deletingCQList
  | deletingOnList
  deriving DecidableEq, Repr

/-- Where the main thread is. -/
inductive MainAt
  /-- In the loop of `RunThreads` that starts the workers. -/
  | spawning
  /-- In the one that waits for them, at the `i`-th. -/
  | polling (i : ℕ)
  /-- In the loop of `main`. -/
  | running
  /-- In `StopServer`, called from the loop or after it. -/
  | stopping (second : Bool) (place : StopAt)
  | returned
  deriving DecidableEq, Repr

/-- An array that was allocated with `new[]`, or its pointer. -/
inductive Allocation
  | null
  | allocated
  | deleted
  deriving DecidableEq, Repr

/-- How the process crashes. -/
inductive Fault
  /-- `join` on a thread that was joined throws, and nobody catches it. -/
  | joinedTwice
  | deletedTwice
  /-- `StopServer` reads an array that is not there, or closes a queue that is not open. -/
  | closedNothing
  /-- `MakeNewSession` reads a queue that is not there, or not open. -/
  | accepter
  /-- And a worker. -/
  | worker (i : ℕ)
  /-- A worker does not come back from the completions it handles. -/
  | handling (i : ℕ)
  deriving DecidableEq, Repr

/-- **`RIOServer`**, as far as it starts and stops. -/
structure Server where
  main : MainAt
  workers : List WorkerThread
  accepter : AccepterAt
  /-- `listenSocket` is open. -/
  listening : Bool
  serverStop : Bool
  rioCQList : Allocation
  workerOnList : Allocation
  fault : Option Fault
  /-- History: where the accepter was when `listenSocket` was closed. -/
  atClose : Option AccepterAt
  deriving DecidableEq, Repr

/-- A step of a thread. -/
inductive LifecycleEvent
  | main
  /-- `ok` is whether its queue is created, and whether it comes back from what it handles. -/
  | worker (i : ℕ) (ok : Bool)
  /-- The accepter calls `accept`, -/
  | call
  /-- which comes back with a socket, -/
  | accepted
  /-- or with an error, after which it goes on, -/
  | failed
  /-- or with `WSAEINTR`. -/
  | interrupted
  /-- `MakeNewSession` takes the queue of a worker. -/
  | makeNewSession (threadId : ℕ)
  deriving DecidableEq, Repr

namespace Server

variable (n : ℕ) (s : Server)

def crash (f : Fault) : Server := { s with fault := some f }

def setWorker (i : ℕ) (w : WorkerThread) : Server := { s with workers := s.workers.set i w }

/-- `RunThreads`, where it starts a worker. -/
def spawn : Server :=
  if s.workers.length < n then
    { s with
      workers := s.workers ++
        [{ place := .creating, joinable := true, rioCQ := .absent, on := false }] }
  else { s with main := .polling 0 }

/-- `RunThreads`, where it waits: on a flag that is not up it starts again. -/
def poll (i : ℕ) : Server :=
  match s.workers[i]? with
  | some w => if w.on = true then { s with main := .polling (i + 1) } else
      { s with main := .polling 0 }
  | none => { s with main := .running, accepter := .calling }

/-- `thread.join()`, which waits. -/
def join (second : Bool) (i : ℕ) : Option Server :=
  match s.workers[i]? with
  | none => some { s with main := .stopping second (.closing 0) }
  | some w =>
    if w.joinable = false then some (s.crash .joinedTwice)
    else if w.place = .ended then
      some { s.setWorker i { w with joinable := false } with
        main := .stopping second (.joining (i + 1)) }
    else none

/-- `RIOCloseCompletionQueue(rioCQList[i])`. -/
def closeQueue (second : Bool) (i : ℕ) : Server :=
  if i < n then
    match s.rioCQList, s.workers[i]? with
    | .allocated, some w =>
      if w.rioCQ = .opened then
        { s.setWorker i { w with rioCQ := .closed } with
          main := .stopping second (.closing (i + 1)) }
      else s.crash .closedNothing
    | _, _ => s.crash .closedNothing
  else { s with main := .stopping second .deletingCQList }

/-- `delete[]` of a null pointer does nothing. -/
def delete : Allocation → Option Allocation
  | .null => some .null
  | .allocated => some .deleted
  | .deleted => none

/-- `StopServer`; `main` calls it again after the first time, and returns after the second. -/
def stopServer (second : Bool) : StopAt → Option Server
  | .closesocket => some
    { s with
      listening := false
      atClose := some (s.atClose.getD s.accepter)
      main := .stopping second .setStop }
  | .setStop => some { s with serverStop := true, main := .stopping second (.joining 0) }
  | .joining i => s.join second i
  | .closing i => some (s.closeQueue n second i)
  | .deletingCQList =>
    match delete s.rioCQList with
    | some a => some { s with rioCQList := a, main := .stopping second .deletingOnList }
    | none => some (s.crash .deletedTwice)
  | .deletingOnList =>
    match delete s.workerOnList with
    | some a => some { s with
        workerOnList := a
        main := if second then .returned else .stopping true .closesocket }
    | none => some (s.crash .deletedTwice)

/-- The main thread. -/
def mainStep : Option Server :=
  match s.main with
  | .spawning => some (s.spawn n)
  | .polling i => some (s.poll i)
  | .running => some { s with main := .stopping false .closesocket }
  | .stopping second place => s.stopServer n second place
  | .returned => none

/-- `Worker`. -/
def workerStep (i : ℕ) (w : WorkerThread) (ok : Bool) : Option Server :=
  match w.place with
  | .creating =>
    if s.rioCQList = .allocated then
      some (s.setWorker i { w with place := .raising, rioCQ := if ok then .opened else .invalid })
    else some (s.crash (.worker i))
  | .raising =>
    if s.workerOnList = .allocated then
      some (s.setWorker i { w with place := .checking, on := true })
    else some (s.crash (.worker i))
  | .checking => some (s.setWorker i
      { w with place := if s.serverStop then .ended else .dequeuing })
  | .dequeuing =>
    if s.rioCQList = .allocated ∧ w.rioCQ = .opened then
      if ok then some (s.setWorker i { w with place := .checking })
      else some (s.crash (.handling i))
    else some (s.crash (.worker i))
  | .ended => none

/-- `MakeNewSession`, where it hands `rioCQList[threadId]` to `InitSession`, which makes a session
or is refused. -/
def makeNewSession (threadId : ℕ) : Server :=
  match s.rioCQList, s.workers[threadId]? with
  | .allocated, some w =>
    if w.rioCQ = .opened ∨ w.rioCQ = .invalid then { s with accepter := .calling }
    else s.crash .accepter
  | _, _ => s.crash .accepter

/-- `GetMinimumSessionThreadId` answers one of the workers, or 0 where there is none. -/
def step (e : LifecycleEvent) : Option Server :=
  if s.fault = none then
    match e with
    | .main => s.mainStep n
    | .worker i ok =>
      match s.workers[i]? with
      | some w => s.workerStep i w ok
      | none => none
    | .call =>
      if s.accepter = .calling then
        if s.listening then some { s with accepter := .blocked } else some s
      else none
    | .accepted =>
      if s.accepter = .blocked ∧ s.listening = true then some { s with accepter := .making }
      else none
    | .failed =>
      if s.accepter = .blocked ∧ s.listening = true then some { s with accepter := .calling }
      else none
    | .interrupted =>
      if s.accepter = .blocked ∧ s.listening = false then some { s with accepter := .ended }
      else none
    | .makeNewSession threadId =>
      if s.accepter = .making ∧ threadId < max 1 n then some (s.makeNewSession threadId) else none
  else none

/-- `StartServer` has come to `RunThreads`, -/
def started : Server where
  main := .spawning
  workers := []
  accepter := .unstarted
  listening := true
  serverStop := false
  rioCQList := .allocated
  workerOnList := .allocated
  fault := none
  atClose := none

/-- or has returned `false` before, which `main` does not look at. -/
def notStarted : Server :=
  { started with main := .running, rioCQList := .null, workerOnList := .null }

end Server

/-- **The threads of the server**, for `n` workers. -/
def lifecycle (n : ℕ) : System Server LifecycleEvent where
  Init s := s = .started ∨ s = .notStarted
  step := Server.step n

variable {n i j k : ℕ} {s s' : Server} {w w' : WorkerThread} {e : LifecycleEvent}

/-! ## What the place of the main thread says -/

namespace MainAt

/-- How many flags it has seen up. -/
def seen (n : ℕ) : MainAt → ℕ
  | .spawning => 0
  | .polling i => i
  | _ => n

/-- How many workers it has joined. -/
def joined (n : ℕ) : MainAt → ℕ
  | .stopping false .closesocket | .stopping false .setStop => 0
  | .stopping false (.joining i) => i
  | .stopping _ _ | .returned => n
  | _ => 0

/-- How many queues it has closed. -/
def closed (n : ℕ) : MainAt → ℕ
  | .stopping false .closesocket | .stopping false .setStop | .stopping false (.joining _) => 0
  | .stopping false (.closing i) => i
  | .stopping _ _ | .returned => n
  | _ => 0

/-- `listenSocket` is open. -/
def listening : MainAt → Bool
  | .stopping false .closesocket => true
  | .stopping _ _ | .returned => false
  | _ => true

/-- `serverStop` is set. -/
def stopped : MainAt → Bool
  | .stopping false .closesocket | .stopping false .setStop => false
  | .stopping _ _ | .returned => true
  | _ => false

/-- `rioCQList` is deleted. -/
def deletedCQList : MainAt → Bool
  | .stopping false .deletingOnList | .stopping true _ | .returned => true
  | _ => false

/-- `workerOnList` is. -/
def deletedOnList : MainAt → Bool
  | .stopping true _ | .returned => true
  | _ => false

/-- `RunThreads` has come back. -/
def ran : MainAt → Bool
  | .spawning | .polling _ => false
  | _ => true

end MainAt

/-- An array that was allocated, and deleted or not. -/
def Allocation.of (deleted : Bool) : Allocation := if deleted then .deleted else .allocated

/-- What `RIOCreateCompletionQueue` has answered. -/
def Queue.Created (q : Queue) : Prop := q = .opened ∨ q = .invalid

/-- **What is known of the `j`-th worker** from the place of the main thread. -/
structure WorkerSound (n : ℕ) (main : MainAt) (j : ℕ) (w : WorkerThread) : Prop where
  joinable : w.joinable = decide (main.joined n ≤ j)
  rioCQ : if j < main.closed n then w.rioCQ = .closed else
    if w.place = .creating then w.rioCQ = .absent else w.rioCQ.Created
  on : w.on = true ↔ w.place ≠ .creating ∧ w.place ≠ .raising
  seen : j < main.seen n → w.on = true
  joined : j < main.joined n → w.place = .ended
  stopped : w.place = .ended → main.stopped = true

/-- Where the main thread can be: in its second `StopServer` it gets no further than to the first
thread it has joined already or, where there are no workers, to the array it has deleted. -/
def Comes (n : ℕ) : MainAt → Prop
  | .spawning | .running => True
  | .polling i => i ≤ n
  | .stopping false (.joining i) | .stopping false (.closing i) => i ≤ n
  | .stopping false _ => True
  | .stopping true .closesocket | .stopping true .setStop => True
  | .stopping true (.joining i) => i = 0
  | .stopping true (.closing i) => i = 0 ∧ n = 0
  | .stopping true .deletingCQList => n = 0
  | .stopping true .deletingOnList | .returned => False

/-- **How a server that has started its threads can crash.** -/
inductive Crashes (n : ℕ) (s : Server) : Fault → Prop
  | accepter : Crashes n s .accepter
  | handling (i : ℕ) : Crashes n s (.handling i)
  /-- A worker uses a queue that was not created, -/
  | used {i : ℕ} {w : WorkerThread} : s.workers[i]? = some w → w.rioCQ = .invalid →
      Crashes n s (.worker i)
  /-- or `StopServer` closes it. -/
  | closed {i : ℕ} {w : WorkerThread} : s.workers[i]? = some w → w.rioCQ = .invalid →
      Crashes n s .closedNothing
  | joinedTwice : 0 < n → s.main = .stopping true (.joining 0) → Crashes n s .joinedTwice
  | deletedTwice : n = 0 → s.main = .stopping true .deletingCQList → Crashes n s .deletedTwice

/-- **The server that has started its threads.** -/
structure Sound (n : ℕ) (s : Server) : Prop where
  workers : ∀ (j : ℕ) (w : WorkerThread), s.workers[j]? = some w → WorkerSound n s.main j w
  count : s.workers.length ≤ n
  all : s.main ≠ .spawning → s.workers.length = n
  comes : Comes n s.main
  serverStop : s.serverStop = s.main.stopped
  listening : s.listening = s.main.listening
  rioCQList : s.rioCQList = .of s.main.deletedCQList
  workerOnList : s.workerOnList = .of s.main.deletedOnList
  accepter : s.accepter = .unstarted ↔ s.main.ran = false
  faults : ∀ f ∈ s.fault, Crashes n s f

theorem Crashes.congr {f : Fault} (h : Crashes n s f) (hworkers : s'.workers = s.workers)
    (hmain : s'.main = s.main) : Crashes n s' f := by
  cases h with
  | accepter => exact .accepter
  | handling i => exact .handling i
  | used hw hinvalid => exact .used (hworkers ▸ hw) hinvalid
  | closed hw hinvalid => exact .closed (hworkers ▸ hw) hinvalid
  | joinedTwice hn hplace => exact .joinedTwice hn (hmain.trans hplace)
  | deletedTwice hn hplace => exact .deletedTwice hn (hmain.trans hplace)

theorem crashes_of_none (h : s.fault = none) : ∀ f ∈ s.fault, Crashes n s f :=
  fun _ hf => nomatch h.symm.trans hf

/-- **The server that has not.** -/
structure Idle (n : ℕ) (s : Server) : Prop where
  workers : s.workers = []
  accepter : s.accepter = .unstarted
  rioCQList : s.rioCQList = .null
  workerOnList : s.workerOnList = .null
  comes : s.main = .running ∨ s.main = .returned ∧ n = 0 ∨
    ∃ second place, s.main = .stopping second place ∧ (place = .closesocket ∨
      place = .setStop ∨ place = .joining 0 ∨ place = .closing 0 ∨
      n = 0 ∧ (place = .deletingCQList ∨ place = .deletingOnList))
  faults : s.fault = none ∨
    s.fault = some .closedNothing ∧ 0 < n ∧ ∃ second, s.main = .stopping second (.closing 0)

/-- A worker's books do not depend on where the main thread is, but on what that says. -/
theorem WorkerSound.congr {main main' : MainAt} (h : WorkerSound n main j w)
    (hjoined : main'.joined n = main.joined n) (hclosed : main'.closed n = main.closed n)
    (hseen : j < main'.seen n → w.on = true)
    (hstopped : main.stopped = true → main'.stopped = true) :
    WorkerSound n main' j w where
  joinable := by rw [hjoined, h.joinable]
  rioCQ := by rw [hclosed]; exact h.rioCQ
  on := h.on
  seen := hseen
  joined hj := h.joined (hjoined ▸ hj)
  stopped hended := hstopped (h.stopped hended)

theorem sound_started : Sound n .started where
  workers j w hj := by cases hj
  count := Nat.zero_le n
  all h := absurd rfl h
  comes := trivial
  serverStop := rfl
  listening := rfl
  rioCQList := rfl
  workerOnList := rfl
  accepter := ⟨fun _ => rfl, fun _ => rfl⟩
  faults _ hf := nomatch hf

theorem idle_notStarted : Idle n .notStarted where
  workers := rfl
  accepter := rfl
  rioCQList := rfl
  workerOnList := rfl
  comes := .inl rfl
  faults := .inl rfl

/-! ## The main thread -/

/-- What a worker's books say after a change of the worker at `i`. -/
theorem Sound.set (h : Sound n s) {main : MainAt} (hw' : WorkerSound n main i w')
    (hrest : ∀ (j : ℕ) (v : WorkerThread), j ≠ i → s.workers[j]? = some v →
      WorkerSound n s.main j v → WorkerSound n main j v) :
    ∀ (j : ℕ) (v : WorkerThread), (s.workers.set i w')[j]? = some v → WorkerSound n main j v := by
  intro j v hj
  rcases getElem?_set_eq_some hj with ⟨rfl, rfl⟩ | ⟨hne, hold⟩
  · exact hw'
  · exact hrest j v hne hold (h.workers j v hold)

/-- **The main thread goes on** and changes nothing else. -/
theorem Sound.goesOn {main : MainAt} (h : Sound n s) (hfault : s.fault = none)
    (hcomes : Comes n main) (hall : s.workers.length = n)
    (hjoined : main.joined n = s.main.joined n) (hclosed : main.closed n = s.main.closed n)
    (hseen : ∀ (j : ℕ) (w : WorkerThread), s.workers[j]? = some w → j < main.seen n → w.on = true)
    (hstopped : main.stopped = s.main.stopped) (hlistening : main.listening = s.main.listening)
    (hcq : main.deletedCQList = s.main.deletedCQList)
    (hon : main.deletedOnList = s.main.deletedOnList) (hran : main.ran = s.main.ran) :
    Sound n { s with main := main } where
  workers j w hj := (h.workers j w hj).congr hjoined hclosed (hseen j w hj) fun hs => hstopped ▸ hs
  count := h.count
  all _ := hall
  comes := hcomes
  serverStop := h.serverStop.trans hstopped.symm
  listening := h.listening.trans hlistening.symm
  rioCQList := h.rioCQList.trans (by rw [hcq])
  workerOnList := h.workerOnList.trans (by rw [hon])
  accepter := by rw [hran]; exact h.accepter
  faults := crashes_of_none hfault

theorem Sound.crash {f : Fault} (h : Sound n s) (hf : Crashes n s f) : Sound n (s.crash f) where
  workers := h.workers
  count := h.count
  all := h.all
  comes := h.comes
  serverStop := h.serverStop
  listening := h.listening
  rioCQList := h.rioCQList
  workerOnList := h.workerOnList
  accepter := h.accepter
  faults f' hf' := by
    obtain rfl := Option.some.inj hf'
    exact hf.congr rfl rfl

/-- The flags the main thread has seen stay up. -/
theorem Sound.on_of_seen (h : Sound n s) (hj : s.workers[j]? = some w) (hlt : j < s.main.seen n) :
    w.on = true :=
  (h.workers j w hj).seen hlt

theorem Sound.spawn (h : Sound n s) (hfault : s.fault = none) (hmain : s.main = .spawning) :
    Sound n (s.spawn n) := by
  unfold Server.spawn
  split
  · rename_i hlt
    refine { h with
      workers := fun j w hj => ?_
      count := ?_
      all := fun hne => absurd hmain hne
      faults := crashes_of_none hfault }
    · rcases getElem?_concat_eq_some hj with hold | ⟨rfl, rfl⟩
      · exact h.workers j w hold
      · rw [show (_ : Server).main = s.main from rfl, hmain]
        exact ⟨rfl, by simp [MainAt.closed], by simp, fun hlt => absurd hlt (Nat.not_lt_zero _),
          fun hlt => absurd hlt (Nat.not_lt_zero _), fun hended => by cases hended⟩
    · rw [List.length_append, List.length_singleton]
      exact hlt
  · rename_i hge
    have hlen := h.count
    refine h.goesOn hfault (Nat.zero_le n) (by omega) ?_ ?_
      (fun j w _ hlt => absurd hlt (Nat.not_lt_zero _)) ?_ ?_ ?_ ?_ ?_ <;> rw [hmain] <;> rfl

/-- **The barrier.** The accepter is started when every flag was seen up. -/
theorem Sound.poll (h : Sound n s) (hfault : s.fault = none) (hmain : s.main = .polling i) :
    Sound n (s.poll i) := by
  have hall : s.workers.length = n := h.all (by rw [hmain]; exact fun h => by cases h)
  unfold Server.poll
  split
  · rename_i w hw
    have hlt : i < n := hall ▸ (List.getElem?_eq_some_iff.mp hw).1
    split
    · rename_i hon
      refine h.goesOn hfault hlt hall ?_ ?_ (fun j v hj hseen => ?_) ?_ ?_ ?_ ?_ ?_
      on_goal 3 =>
        rcases Nat.lt_or_eq_of_le (Nat.le_of_lt_succ hseen) with hlt | rfl
        · exact h.on_of_seen hj (by rw [hmain]; exact hlt)
        · obtain rfl : w = v := Option.some.inj (hw.symm.trans hj)
          exact hon
      all_goals rw [hmain]; rfl
    · refine h.goesOn hfault (Nat.zero_le n) hall ?_ ?_
        (fun j w _ hlt => absurd hlt (Nat.not_lt_zero _)) ?_ ?_ ?_ ?_ ?_ <;> rw [hmain] <;> rfl
  · rename_i hnone
    have hle : n ≤ i := hall ▸ List.getElem?_eq_none_iff.mp hnone
    have hseen : ∀ (j : ℕ) (w : WorkerThread), s.workers[j]? = some w → w.on = true := by
      intro j w hj
      refine h.on_of_seen hj ?_
      rw [hmain]
      exact Nat.lt_of_lt_of_le (hall ▸ (List.getElem?_eq_some_iff.mp hj).1) hle
    refine
      { workers := fun j w hj => (h.workers j w hj).congr ?_ ?_ (fun _ => hseen j w hj) ?_
        count := h.count
        all := fun _ => hall
        comes := trivial
        serverStop := h.serverStop.trans ?_
        listening := h.listening.trans ?_
        rioCQList := h.rioCQList.trans ?_
        workerOnList := h.workerOnList.trans ?_
        accepter := ⟨fun h => (by cases h), fun h => (by cases h)⟩
        faults := crashes_of_none hfault } <;> rw [hmain] <;> first | rfl | exact id

theorem Sound.run (h : Sound n s) (hfault : s.fault = none) (hmain : s.main = .running) :
    Sound n { s with main := .stopping false .closesocket } := by
  refine h.goesOn hfault trivial (h.all (by rw [hmain]; exact fun h => by cases h)) ?_ ?_
    (fun j w hj hlt => h.on_of_seen hj (by rw [hmain]; exact hlt)) ?_ ?_ ?_ ?_ ?_ <;>
    rw [hmain] <;> rfl

/-! ## StopServer -/

theorem Sound.closesocket {second : Bool} (h : Sound n s) (hfault : s.fault = none)
    (hmain : s.main = .stopping second .closesocket) (atClose : Option AccepterAt) :
    Sound n { s with
      listening := false, atClose := atClose, main := .stopping second .setStop } := by
  have hall : s.workers.length = n := h.all (by rw [hmain]; exact fun h => by cases h)
  have hkeep : s.main.ran = true := by rw [hmain]; rfl
  cases second <;>
  refine
    { workers := fun j w hj => (h.workers j w hj).congr ?_ ?_
        (fun hlt => h.on_of_seen hj (by rw [hmain]; exact hlt)) ?_
      count := h.count
      all := fun _ => hall
      comes := trivial
      serverStop := h.serverStop.trans ?_
      listening := rfl
      rioCQList := h.rioCQList.trans ?_
      workerOnList := h.workerOnList.trans ?_
      accepter := h.accepter.trans ?_
      faults := crashes_of_none hfault } <;> rw [hmain] <;> first | rfl | exact id

theorem Sound.setStop {second : Bool} (h : Sound n s) (hfault : s.fault = none)
    (hmain : s.main = .stopping second .setStop) :
    Sound n { s with serverStop := true, main := .stopping second (.joining 0) } := by
  have hall : s.workers.length = n := h.all (by rw [hmain]; exact fun h => by cases h)
  cases second <;>
  refine
    { workers := fun j w hj => (h.workers j w hj).congr ?_ ?_
        (fun hlt => h.on_of_seen hj (by rw [hmain]; exact hlt)) (fun _ => rfl)
      count := h.count
      all := fun _ => hall
      comes := ?_
      serverStop := rfl
      listening := h.listening.trans ?_
      rioCQList := h.rioCQList.trans ?_
      workerOnList := h.workerOnList.trans ?_
      accepter := h.accepter.trans ?_
      faults := crashes_of_none hfault } <;> first | exact Nat.zero_le n | rfl | (rw [hmain]; rfl)

/-- **The first call joins each worker once; the second throws at the first of them.** -/
theorem Sound.join {second : Bool} (h : Sound n s) (hfault : s.fault = none)
    (hmain : s.main = .stopping second (.joining i)) (hs : s.join second i = some s') :
    Sound n s' := by
  have hall : s.workers.length = n := h.all (by rw [hmain]; exact fun h => by cases h)
  have hcomes := h.comes
  rw [hmain] at hcomes
  unfold Server.join at hs
  split at hs
  · rename_i hnone
    have hle : n ≤ i := hall ▸ List.getElem?_eq_none_iff.mp hnone
    obtain rfl := Option.some.inj hs
    cases second with
    | false =>
      obtain rfl : i = n := Nat.le_antisymm hcomes hle
      refine h.goesOn hfault (Nat.zero_le _) hall ?_ ?_
        (fun j w hj hlt => h.on_of_seen hj (by rw [hmain]; exact hlt)) ?_ ?_ ?_ ?_ ?_ <;>
        rw [hmain] <;> rfl
    | true =>
      obtain rfl : i = 0 := hcomes
      obtain rfl : n = 0 := Nat.le_zero.mp hle
      refine h.goesOn hfault ⟨rfl, rfl⟩ hall ?_ ?_
        (fun j w hj hlt => h.on_of_seen hj (by rw [hmain]; exact hlt)) ?_ ?_ ?_ ?_ ?_ <;>
        rw [hmain] <;> rfl
  · rename_i w hw
    have hlt : i < n := hall ▸ (List.getElem?_eq_some_iff.mp hw).1
    have hsound := h.workers i w hw
    have hjoinable := hsound.joinable
    rw [hmain] at hjoinable
    split at hs
    · obtain rfl := Option.some.inj hs
      rename_i hnot
      cases second with
      | false =>
        rw [hnot] at hjoinable
        simp [MainAt.joined] at hjoinable
      | true =>
        obtain rfl : i = 0 := hcomes
        exact h.crash (.joinedTwice hlt hmain)
    · rename_i hyes
      split at hs
      · rename_i hended
        obtain rfl := Option.some.inj hs
        cases second with
        | true =>
          obtain rfl : i = 0 := hcomes
          simp [MainAt.joined, hyes] at hjoinable
          omega
        | false =>
          have hself : WorkerSound n (.stopping false (.joining (i + 1))) i
              { w with joinable := false } := by
            refine ⟨?_, ?_, hsound.on, fun _ => hsound.on.mpr (by rw [hended]; simp),
              fun _ => hended, fun _ => rfl⟩
            · exact (decide_eq_false (Nat.not_succ_le_self i)).symm
            · have hcq := hsound.rioCQ
              rw [hmain] at hcq
              exact hcq
          have hrest : ∀ (j : ℕ) (v : WorkerThread), j ≠ i → s.workers[j]? = some v →
              WorkerSound n s.main j v →
              WorkerSound n (.stopping false (.joining (i + 1))) j v := by
            intro j v hne hj hv
            have hjoin := hv.joined
            rw [hmain] at hjoin
            refine ⟨?_, ?_, hv.on, fun hlt => hv.seen (by rw [hmain]; exact hlt),
              fun hlt => hjoin ?_, fun _ => rfl⟩
            · rw [hv.joinable, hmain]
              exact decide_eq_decide.mpr (show i ≤ j ↔ i + 1 ≤ j by omega)
            · have hcq := hv.rioCQ
              rw [hmain] at hcq
              exact hcq
            · have hlt' : j < i + 1 := hlt
              exact (show j < i by omega)
          refine
            { workers := h.set hself hrest
              count := by simpa [Server.setWorker] using h.count
              all := fun _ => by simpa [Server.setWorker] using hall
              comes := hlt
              serverStop := h.serverStop.trans ?_
              listening := h.listening.trans ?_
              rioCQList := h.rioCQList.trans ?_
              workerOnList := h.workerOnList.trans ?_
              accepter := h.accepter.trans ?_
              faults := crashes_of_none hfault } <;> rw [hmain] <;> rfl
      · cases hs

/-- **Each queue is closed once**, when all workers have ended. -/
theorem Sound.closeQueue {second : Bool} (h : Sound n s) (hfault : s.fault = none)
    (hmain : s.main = .stopping second (.closing i)) : Sound n (s.closeQueue n second i) := by
  have hall : s.workers.length = n := h.all (by rw [hmain]; exact fun h => by cases h)
  have hcomes := h.comes
  have hlist := h.rioCQList
  rw [hmain] at hcomes hlist
  unfold Server.closeQueue
  cases second with
  | true =>
    obtain ⟨rfl, rfl⟩ := hcomes
    rw [if_neg (Nat.lt_irrefl 0)]
    refine h.goesOn hfault rfl hall ?_ ?_
      (fun j w hj hlt => h.on_of_seen hj (by rw [hmain]; exact hlt)) ?_ ?_ ?_ ?_ ?_ <;>
      rw [hmain] <;> rfl
  | false =>
    split
    · rename_i hlt
      obtain ⟨w, hw⟩ : ∃ w, s.workers[i]? = some w := ⟨_, List.getElem?_eq_getElem (hall ▸ hlt)⟩
      have hsound := h.workers i w hw
      have hended : w.place = .ended := hsound.joined (by rw [hmain]; exact hlt)
      have hcreated := hsound.rioCQ
      rw [hmain, hended] at hcreated
      simp only [MainAt.closed, Nat.lt_irrefl, if_false, reduceCtorEq] at hcreated
      rw [hlist, hw]
      simp only [Allocation.of, MainAt.deletedCQList, Bool.false_eq_true, if_false]
      split
      case isFalse hnot =>
        exact h.crash (.closed hw (hcreated.resolve_left hnot))
      have hself : WorkerSound n (.stopping false (.closing (i + 1))) i
          { w with rioCQ := .closed } := by
        refine ⟨?_, ?_, hsound.on, fun _ => hsound.on.mpr (by rw [hended]; simp),
          fun _ => hended, fun _ => rfl⟩
        · rw [hsound.joinable, hmain]
          rfl
        · simp [MainAt.closed]
      have hrest : ∀ (j : ℕ) (v : WorkerThread), j ≠ i → s.workers[j]? = some v →
          WorkerSound n s.main j v → WorkerSound n (.stopping false (.closing (i + 1))) j v := by
        intro j v hne hj hv
        refine ⟨?_, ?_, hv.on, fun hlt => hv.seen (by rw [hmain]; exact hlt),
          fun hlt => hv.joined (by rw [hmain]; exact hlt), fun _ => rfl⟩
        · rw [hv.joinable, hmain]
          rfl
        · have hcq := hv.rioCQ
          rw [hmain] at hcq
          have hiff : j < MainAt.closed n (.stopping false (.closing i)) ↔
              j < MainAt.closed n (.stopping false (.closing (i + 1))) :=
            show j < i ↔ j < i + 1 by omega
          rwa [if_congr hiff rfl rfl] at hcq
      refine
        { workers := h.set hself hrest
          count := by simpa [Server.setWorker] using h.count
          all := fun _ => by simpa [Server.setWorker] using hall
          comes := hlt
          serverStop := h.serverStop.trans ?_
          listening := h.listening.trans ?_
          rioCQList := h.rioCQList.trans ?_
          workerOnList := h.workerOnList.trans ?_
          accepter := h.accepter.trans ?_
          faults := crashes_of_none hfault } <;> rw [hmain] <;> rfl
    · rename_i hge
      obtain rfl : i = n := Nat.le_antisymm hcomes (Nat.le_of_not_lt hge)
      refine h.goesOn hfault trivial hall ?_ ?_
        (fun j w hj hlt => h.on_of_seen hj (by rw [hmain]; exact hlt)) ?_ ?_ ?_ ?_ ?_ <;>
        rw [hmain] <;> rfl

/-- The arrays are deleted once; without workers, the second call deletes the first of them again.
-/
theorem Sound.deletingCQList {second : Bool} (h : Sound n s) (hfault : s.fault = none)
    (hmain : s.main = .stopping second .deletingCQList)
    (hs : s.stopServer n second .deletingCQList = some s') : Sound n s' := by
  have hall : s.workers.length = n := h.all (by rw [hmain]; exact fun h => by cases h)
  have hlist := h.rioCQList
  rw [hmain] at hlist
  rw [Server.stopServer, hlist] at hs
  cases second with
  | true =>
    have hcomes := h.comes
    rw [hmain] at hcomes
    obtain rfl := Option.some.inj hs
    exact h.crash (.deletedTwice hcomes hmain)
  | false =>
    obtain rfl := Option.some.inj hs
    refine
      { workers := fun j w hj => (h.workers j w hj).congr ?_ ?_
          (fun hlt => h.on_of_seen hj (by rw [hmain]; exact hlt)) (fun _ => rfl)
        count := h.count
        all := fun _ => hall
        comes := trivial
        serverStop := h.serverStop.trans ?_
        listening := h.listening.trans ?_
        rioCQList := rfl
        workerOnList := h.workerOnList.trans ?_
        accepter := h.accepter.trans ?_
        faults := crashes_of_none hfault } <;> rw [hmain] <;> rfl

theorem Sound.deletingOnList {second : Bool} (h : Sound n s) (hfault : s.fault = none)
    (hmain : s.main = .stopping second .deletingOnList)
    (hs : s.stopServer n second .deletingOnList = some s') : Sound n s' := by
  have hall : s.workers.length = n := h.all (by rw [hmain]; exact fun h => by cases h)
  have hlist := h.workerOnList
  rw [hmain] at hlist
  rw [Server.stopServer, hlist] at hs
  cases second with
  | true =>
    have hcomes := h.comes
    rw [hmain] at hcomes
    exact hcomes.elim
  | false =>
    obtain rfl := Option.some.inj hs
    refine
      { workers := fun j w hj => (h.workers j w hj).congr ?_ ?_
          (fun hlt => h.on_of_seen hj (by rw [hmain]; exact hlt)) (fun _ => rfl)
        count := h.count
        all := fun _ => hall
        comes := trivial
        serverStop := h.serverStop.trans ?_
        listening := h.listening.trans ?_
        rioCQList := h.rioCQList.trans ?_
        workerOnList := rfl
        accepter := h.accepter.trans ?_
        faults := crashes_of_none hfault } <;> rw [hmain] <;> rfl

/-- **Every step of the main thread is sound.** -/
theorem Sound.mainStep (h : Sound n s) (hfault : s.fault = none) (hs : s.mainStep n = some s') :
    Sound n s' := by
  unfold Server.mainStep at hs
  split at hs
  · rename_i hmain
    obtain rfl := Option.some.inj hs
    exact h.spawn hfault hmain
  · rename_i i hmain
    obtain rfl := Option.some.inj hs
    exact h.poll hfault hmain
  · rename_i hmain
    obtain rfl := Option.some.inj hs
    exact h.run hfault hmain
  · rename_i second place hmain
    cases place with
    | closesocket =>
      obtain rfl := Option.some.inj hs
      exact h.closesocket hfault hmain _
    | setStop =>
      obtain rfl := Option.some.inj hs
      exact h.setStop hfault hmain
    | joining i => exact h.join hfault hmain hs
    | closing i =>
      obtain rfl := Option.some.inj hs
      exact h.closeQueue hfault hmain
    | deletingCQList => exact h.deletingCQList hfault hmain hs
    | deletingOnList => exact h.deletingOnList hfault hmain hs
  · cases hs

/-! ## The workers and the accepter -/

/-- What the place of the main thread says while a worker runs. -/
theorem Sound.running_of_not_ended (h : Sound n s) (hw : s.workers[i]? = some w)
    (hplace : w.place ≠ .ended) :
    s.rioCQList = .allocated ∧ s.workerOnList = .allocated ∧ s.main.joined n ≤ i ∧
      s.main.closed n ≤ i := by
  have hlt : i < n := Nat.lt_of_lt_of_le (List.getElem?_eq_some_iff.mp hw).1 h.count
  have hjoined : s.main.joined n ≤ i :=
    Nat.le_of_not_lt fun hj => hplace ((h.workers i w hw).joined hj)
  have hcq := h.rioCQList
  have hon := h.workerOnList
  generalize s.main = main at hjoined hcq hon ⊢
  rw [hcq, hon]
  rcases main with _ | i' | _ | ⟨_ | _, _ | _ | i' | i' | _ | _⟩ | _ <;>
    simp only [MainAt.joined] at hjoined <;>
    first | omega | exact ⟨rfl, rfl, hjoined, Nat.zero_le _⟩

/-- A worker goes on to a place whose books are in order. -/
theorem Sound.setWorker (h : Sound n s) (hfault : s.fault = none)
    (hw' : WorkerSound n s.main i w') : Sound n (s.setWorker i w') where
  workers := h.set hw' fun _ _ _ _ hv => hv
  count := by simpa [Server.setWorker] using h.count
  all := by simpa [Server.setWorker] using h.all
  comes := h.comes
  serverStop := h.serverStop
  listening := h.listening
  rioCQList := h.rioCQList
  workerOnList := h.workerOnList
  accepter := h.accepter
  faults := crashes_of_none hfault

/-- **A worker never finds an array deleted or its queue closed.** -/
theorem Sound.workerStep {ok : Bool} (h : Sound n s) (hfault : s.fault = none)
    (hw : s.workers[i]? = some w) (hs : s.workerStep i w ok = some s') : Sound n s' := by
  have hsound := h.workers i w hw
  have hrunning : w.place ≠ .ended := by
    intro hended
    rw [Server.workerStep, hended] at hs
    cases hs
  obtain ⟨hcq, hon, hjoined, hclosed⟩ := h.running_of_not_ended hw hrunning
  have hnot : ¬ i < s.main.joined n := Nat.not_lt.mpr hjoined
  have hrioCQ := hsound.rioCQ
  rw [if_neg (Nat.not_lt.mpr hclosed)] at hrioCQ
  unfold Server.workerStep at hs
  split at hs <;> rename_i hplace <;> try rw [hplace] at hrioCQ
  · rw [if_pos hcq] at hs
    obtain rfl := Option.some.inj hs
    refine h.setWorker hfault ⟨hsound.joinable, ?_, ?_, fun hseen => ?_, fun hlt => absurd hlt hnot,
      fun hended => by cases hended⟩
    · rw [if_neg (Nat.not_lt.mpr hclosed), if_neg (by simp)]
      cases ok
      · exact .inr rfl
      · exact .inl rfl
    · have := hsound.on
      rw [hplace] at this
      simpa using this
    · have := hsound.on.mp (hsound.seen hseen)
      rw [hplace] at this
      exact absurd rfl this.1
  · rw [if_pos hon] at hs
    obtain rfl := Option.some.inj hs
    refine h.setWorker hfault ⟨hsound.joinable, ?_, by simp, fun _ => rfl,
      fun hlt => absurd hlt hnot, fun hended => by cases hended⟩
    rw [if_neg (Nat.not_lt.mpr hclosed)]
    exact hrioCQ
  · obtain rfl := Option.some.inj hs
    have hup : w.on = true := hsound.on.mpr (by rw [hplace]; simp)
    cases hstop : s.serverStop with
    | true =>
      refine h.setWorker hfault ⟨hsound.joinable, ?_, by simpa using hup, fun _ => hup,
        fun _ => rfl, fun _ => h.serverStop ▸ hstop⟩
      rw [if_neg (Nat.not_lt.mpr hclosed)]
      exact hrioCQ
    | false =>
      refine h.setWorker hfault ⟨hsound.joinable, ?_, by simpa using hup, fun _ => hup,
        fun hlt => absurd hlt hnot, fun hended => by cases hended⟩
      rw [if_neg (Nat.not_lt.mpr hclosed)]
      exact hrioCQ
  · have hcreated : w.rioCQ.Created := hrioCQ
    split at hs
    · split at hs <;> obtain rfl := Option.some.inj hs
      · have hup : w.on = true := hsound.on.mpr (by rw [hplace]; simp)
        refine h.setWorker hfault ⟨hsound.joinable, ?_, by simpa using hup, fun _ => hup,
          fun hlt => absurd hlt hnot, fun hended => by cases hended⟩
        rw [if_neg (Nat.not_lt.mpr hclosed)]
        exact hrioCQ
      · exact h.crash (.handling i)
    · rename_i hopened
      obtain rfl := Option.some.inj hs
      have hinvalid := hcreated.resolve_left fun ho => hopened ⟨hcq, ho⟩
      exact h.crash (.used hw hinvalid)
  · cases hs

/-- The accepter goes on. -/
theorem Sound.accept {accepter : AccepterAt} (h : Sound n s) (hfault : s.fault = none)
    (hnot : s.accepter ≠ .unstarted) (hnot' : accepter ≠ .unstarted) :
    Sound n { s with accepter := accepter } where
  workers := h.workers
  count := h.count
  all := h.all
  comes := h.comes
  serverStop := h.serverStop
  listening := h.listening
  rioCQList := h.rioCQList
  workerOnList := h.workerOnList
  accepter := ⟨fun hun => absurd hun hnot', fun hran => absurd (h.accepter.mpr hran) hnot⟩
  faults := crashes_of_none hfault

/-- What the accepter finds while `listenSocket` is open, and until the first queue is closed. -/
theorem Sound.makeNewSession_of_listening (h : Sound n s) (hn : 0 < n)
    (hmaking : s.accepter = .making) (hlistening : s.listening = true) (hk : k < max 1 n) :
    s.makeNewSession k = { s with accepter := .calling } := by
  have hran : s.main.ran = true := by
    cases hran : s.main.ran with
    | true => rfl
    | false =>
      have := h.accepter.mpr hran
      rw [hmaking] at this
      cases this
  have hopen := h.listening.symm.trans hlistening
  have hcq := h.rioCQList
  have hwhere : s.main.ran = true ∧ s.main.listening = true → s.main ≠ .spawning ∧
      s.main.seen n = n ∧ s.main.closed n = 0 ∧ s.main.deletedCQList = false := by
    rcases s.main with _ | i | _ | ⟨_ | _, _ | _ | i | i | _ | _⟩ | _ <;>
      simp [MainAt.ran, MainAt.listening, MainAt.seen, MainAt.closed, MainAt.deletedCQList]
  obtain ⟨hmain, hseen, hclosed, hdeleted⟩ := hwhere ⟨hran, hopen⟩
  rw [hdeleted] at hcq
  have hlt : k < s.workers.length := by rw [h.all hmain]; omega
  obtain ⟨w, hw⟩ : ∃ w, s.workers[k]? = some w := ⟨_, List.getElem?_eq_getElem hlt⟩
  have hsound := h.workers k w hw
  have hup := hsound.on.mp (hsound.seen (by rw [hseen, ← h.all hmain]; exact hlt))
  have hcreated := hsound.rioCQ
  rw [hclosed, if_neg (Nat.not_lt_zero k), if_neg hup.1] at hcreated
  rw [Server.makeNewSession, hcq, hw]
  exact if_pos hcreated

/-- **What a session finds**: its queue, or nothing. -/
theorem makeNewSession_eq :
    s.makeNewSession k = { s with accepter := .calling } ∨
      s.makeNewSession k = s.crash .accepter := by
  unfold Server.makeNewSession
  split
  · split
    · exact .inl rfl
    · exact .inr rfl
  · exact .inr rfl

/-- **Every step of every thread is sound.** -/
theorem Sound.step (h : Sound n s) (hs : s.step n e = some s') : Sound n s' := by
  unfold Server.step at hs
  split at hs
  · rename_i hfault
    cases e with
    | main => exact h.mainStep hfault hs
    | worker i ok =>
      simp only at hs
      split at hs
      · rename_i w hw
        exact h.workerStep hfault hw hs
      · cases hs
    | call =>
      simp only at hs
      split at hs
      · rename_i hcalling
        split at hs
        · obtain rfl := Option.some.inj hs
          exact h.accept hfault (by rw [hcalling]; simp) (by simp)
        · obtain rfl := Option.some.inj hs
          exact h
      · cases hs
    | accepted | failed | interrupted =>
      simp only at hs
      split at hs
      · rename_i hc
        obtain rfl := Option.some.inj hs
        exact h.accept hfault (by rw [hc.1]; simp) (by simp)
      · cases hs
    | makeNewSession k =>
      simp only at hs
      split at hs
      · rename_i hc
        obtain rfl := Option.some.inj hs
        rcases makeNewSession_eq (s := s) (k := k) with heq | heq <;> rw [heq]
        · exact h.accept hfault (by rw [hc.1]; simp) (by simp)
        · exact h.crash .accepter
      · cases hs
  · cases hs

/-! ## The server that was not started -/

theorem Idle.step (h : Idle n s) (hs : s.step n e = some s') : Idle n s' := by
  unfold Server.step at hs
  split at hs
  · rename_i hfault
    cases e with
    | worker i ok => simp [h.workers] at hs
    | call | accepted | failed | interrupted | makeNewSession => simp [h.accepter] at hs
    | main =>
      rcases h.comes with hmain | ⟨hmain, -⟩ | ⟨second, place, hmain, hplace⟩
      · simp only [Server.mainStep, hmain] at hs
        obtain rfl := Option.some.inj hs
        exact { h with comes := .inr (.inr ⟨false, _, rfl, .inl rfl⟩), faults := .inl hfault }
      · simp [Server.mainStep, hmain] at hs
      · simp only [Server.mainStep, hmain] at hs
        rcases hplace with rfl | rfl | rfl | rfl | ⟨rfl, rfl | rfl⟩
        · obtain rfl := Option.some.inj hs
          exact { h with
            comes := .inr (.inr ⟨second, _, rfl, .inr (.inl rfl)⟩), faults := .inl hfault }
        · obtain rfl := Option.some.inj hs
          exact { h with
            comes := .inr (.inr ⟨second, _, rfl, .inr (.inr (.inl rfl))⟩), faults := .inl hfault }
        · simp only [Server.stopServer, Server.join, h.workers, List.getElem?_nil] at hs
          obtain rfl := Option.some.inj hs
          exact { h with
            workers := rfl
            comes := .inr (.inr ⟨second, _, rfl, .inr (.inr (.inr (.inl rfl)))⟩)
            faults := .inl hfault }
        · obtain rfl := Option.some.inj hs
          unfold Server.closeQueue
          split
          · rename_i hlt
            simp only [h.rioCQList]
            exact { h with faults := .inr ⟨rfl, hlt, second, hmain⟩ }
          · rename_i hge
            exact { h with
              comes := .inr (.inr ⟨second, _, rfl, .inr (.inr (.inr (.inr
                ⟨Nat.le_zero.mp (Nat.le_of_not_lt hge), .inl rfl⟩)))⟩)
              faults := .inl hfault }
        · simp only [Server.stopServer, h.rioCQList, Server.delete] at hs
          obtain rfl := Option.some.inj hs
          exact { h with
            rioCQList := rfl
            comes := .inr (.inr ⟨second, _, rfl, .inr (.inr (.inr (.inr ⟨rfl, .inr rfl⟩)))⟩)
            faults := .inl hfault }
        · simp only [Server.stopServer, h.workerOnList, Server.delete] at hs
          obtain rfl := Option.some.inj hs
          cases second with
          | true =>
            exact { h with
              workerOnList := rfl, comes := .inr (.inl ⟨rfl, rfl⟩), faults := .inl hfault }
          | false =>
            exact { h with
              workerOnList := rfl
              comes := .inr (.inr ⟨true, _, rfl, .inl rfl⟩)
              faults := .inl hfault }
  · cases hs

/-- **Every reachable state is that of a server that was started, or of one that was not.** -/
theorem sound_or_idle (h : (lifecycle n).Reachable s) : Sound n s ∨ Idle n s := by
  refine System.ReachableUnder.invariant (P := fun s => Sound n s ∨ Idle n s)
    (fun s hs => ?_) (fun s e s' ih _ hs => ?_) h
  · rcases hs with rfl | rfl
    · exact .inl sound_started
    · exact .inr idle_notStarted
  · exact ih.imp (fun ih => ih.step hs) (fun ih => ih.step hs)

/-! ## What the threads of the server never do -/

/-- How the counts of the main thread go together. -/
theorem MainAt.counts (main : MainAt) :
    (main.ran = true → main ≠ .spawning ∧ main.seen n = n) ∧
      (∀ j, j < main.closed n → main.joined n = n) ∧
      (main.deletedCQList = true ∨ main.deletedOnList = true →
        main.closed n = n ∧ main.joined n = n) := by
  rcases main with _ | i | _ | ⟨_ | _, _ | _ | i | i | _ | _⟩ | _ <;>
    simp [ran, seen, joined, closed, deletedCQList, deletedOnList]

@[simp] theorem Allocation.of_eq_deleted {deleted : Bool} :
    Allocation.of deleted = .deleted ↔ deleted = true := by
  cases deleted <;> simp [Allocation.of]

theorem Allocation.of_eq {deleted : Bool} :
    Allocation.of deleted = .allocated ∨ Allocation.of deleted = .deleted := by
  cases deleted
  · exact .inl rfl
  · exact .inr rfl

theorem Sound.lt (h : Sound n s) (hj : s.workers[j]? = some w) : j < n :=
  Nat.lt_of_lt_of_le (List.getElem?_eq_some_iff.mp hj).1 h.count

/-- **The accepter is started behind the barrier.** -/
theorem Sound.barrier (h : Sound n s) (hacc : s.accepter ≠ .unstarted) :
    s.workers.length = n ∧ ∀ w ∈ s.workers, w.on = true ∧ w.rioCQ ≠ .absent := by
  have hran : s.main.ran = true := by
    cases hran : s.main.ran with
    | true => rfl
    | false => exact absurd (h.accepter.mpr hran) hacc
  obtain ⟨hne, hseen⟩ := s.main.counts.1 hran
  refine ⟨h.all hne, fun w hw => ?_⟩
  obtain ⟨j, hj⟩ := List.mem_iff_getElem?.mp hw
  have hsound := h.workers j w hj
  have hon := hsound.seen (by rw [hseen]; exact h.lt hj)
  refine ⟨hon, fun habsent => ?_⟩
  have hcq := hsound.rioCQ
  rw [habsent, if_neg (hsound.on.mp hon).1] at hcq
  split at hcq
  · cases hcq
  · rcases hcq with hcq | hcq <;> cases hcq

/-- **A closed queue has no worker left** that could use it, or another. -/
theorem Sound.ended_of_closed (h : Sound n s) (hw : w ∈ s.workers) (hq : w.rioCQ = .closed)
    (hw' : w' ∈ s.workers) : w'.place = .ended := by
  obtain ⟨j, hj⟩ := List.mem_iff_getElem?.mp hw
  obtain ⟨j', hj'⟩ := List.mem_iff_getElem?.mp hw'
  have hq' := (h.workers j w hj).rioCQ
  rw [hq] at hq'
  have hclosed : j < s.main.closed n := by
    by_contra hnot
    rw [if_neg hnot] at hq'
    split at hq'
    · cases hq'
    · rcases hq' with hq' | hq' <;> cases hq'
  exact (h.workers j' w' hj').joined (by rw [s.main.counts.2.1 j hclosed]; exact h.lt hj')

/-- **An array is deleted last.** -/
theorem Sound.closed_of_deleted (h : Sound n s)
    (hdel : s.rioCQList = .deleted ∨ s.workerOnList = .deleted) (hw : w ∈ s.workers) :
    w.place = .ended ∧ w.rioCQ = .closed ∧ w.joinable = false := by
  obtain ⟨j, hj⟩ := List.mem_iff_getElem?.mp hw
  rw [h.rioCQList, h.workerOnList, Allocation.of_eq_deleted, Allocation.of_eq_deleted] at hdel
  obtain ⟨hclosed, hjoined⟩ := s.main.counts.2.2 hdel
  have hsound := h.workers j w hj
  have hlt := h.lt hj
  refine ⟨hsound.joined (by rw [hjoined]; exact hlt), ?_, ?_⟩
  · have hcq := hsound.rioCQ
    rwa [hclosed, if_pos hlt] at hcq
  · rw [hsound.joinable, hjoined]
    exact decide_eq_false (Nat.not_le.mpr hlt)

/-- A worker that has crashed the process did so on a queue that was not created. -/
theorem Sound.unopened (h : Sound n s) (hi : s.fault = some (.worker i)) :
    ∃ w, s.workers[i]? = some w ∧ w.rioCQ = .invalid := by
  cases h.faults _ hi with
  | used hw hinvalid => exact ⟨_, hw, hinvalid⟩

/-- **The threads of the server over every run**, for any number of workers and in every order of
their steps. Once the accepter is started, every worker has asked for its queue, whatever the
answer, and has raised its flag. A queue is closed only when all workers have ended, an array is
deleted only when all queues are closed, and no worker ever uses an array that is deleted, or a
queue but one that is open or that was never created. -/
theorem barrier_of_reachable (h : (lifecycle n).Reachable s) :
    (s.accepter ≠ .unstarted → s.workers.length = n ∧
      ∀ w ∈ s.workers, w.on = true ∧ w.rioCQ ≠ .absent) ∧
    (∀ w ∈ s.workers, w.rioCQ = .closed → ∀ w' ∈ s.workers, w'.place = .ended) ∧
    (s.rioCQList = .deleted ∨ s.workerOnList = .deleted →
      ∀ w ∈ s.workers, w.place = .ended ∧ w.rioCQ = .closed ∧ w.joinable = false) ∧
    ∀ i, s.fault = some (.worker i) →
      (∃ w, s.workers[i]? = some w ∧ w.rioCQ = .invalid) ∧
        s.rioCQList = .allocated ∧ s.workerOnList = .allocated := by
  rcases sound_or_idle h with hs | hs
  · refine ⟨hs.barrier, fun w hw hq w' hw' => hs.ended_of_closed hw hq hw',
      fun hdel w hw => hs.closed_of_deleted hdel hw, fun i hi => ?_⟩
    obtain ⟨w, hw, hinvalid⟩ := hs.unopened hi
    -- where an array is deleted, the queue was closed
    have hkept : ¬ (s.rioCQList = .deleted ∨ s.workerOnList = .deleted) := fun hdel =>
      nomatch hinvalid.symm.trans (hs.closed_of_deleted hdel (List.mem_of_getElem? hw)).2.1
    rw [hs.rioCQList, hs.workerOnList, not_or] at hkept
    rw [hs.rioCQList, hs.workerOnList]
    exact ⟨⟨w, hw, hinvalid⟩, Allocation.of_eq.resolve_right hkept.1,
      Allocation.of_eq.resolve_right hkept.2⟩
  · refine ⟨fun hacc => absurd hs.accepter hacc, ?_, ?_, fun i hi => ?_⟩
    · rw [hs.workers]
      exact fun w hw => absurd hw List.not_mem_nil
    · rw [hs.workers]
      exact fun _ w hw => absurd hw List.not_mem_nil
    · rcases hs.faults with hf | ⟨hf, -⟩ <;> rw [hf] at hi <;> simp at hi

/-- The accepter of a server with workers is started, a session is made in it, and `StopServer` has
come back once. -/
theorem barrier_two : ∃ s, (lifecycle 2).Reachable s ∧ s.rioCQList = .deleted ∧
    s.workers.length = 2 ∧ ∀ w ∈ s.workers, w.place = .ended ∧ w.rioCQ = .closed := by
  obtain ⟨s, hs, hf⟩ := System.exists_reachable (lifecycle 2)
    [.main, .main, .worker 0 true, .main, .main, .worker 0 true, .worker 1 true, .worker 1 true,
      .main, .main, .main, .call, .accepted, .makeNewSession 1, .worker 0 true, .worker 0 true,
      .main, .main, .main, .worker 0 true, .worker 1 true, .main, .main, .main, .main, .main, .main,
      .main]
    (f := fun s => s.rioCQList = .deleted ∧ s.accepter = .calling) (.inl rfl) (by decide)
  obtain ⟨hdeleted, hcalling⟩ := of_decide_eq_true hf
  obtain ⟨hbarrier, -, hdel, -⟩ := barrier_of_reachable hs
  exact ⟨s, hs, hdeleted, (hbarrier (by rw [hcalling]; simp)).1,
    fun w hw => ⟨(hdel (.inl hdeleted) w hw).1, (hdel (.inl hdeleted) w hw).2.1⟩⟩

end Lifecycle

end RIOServer

end DdingGameServer
