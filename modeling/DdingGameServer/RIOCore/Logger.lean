import DdingGameServer.Common.System
/-!
# Logger — a drain that does not count down

Any number of threads put records into `logWaitingQueue`, and one thread, woken by an auto-reset
event, moves them into a list of its own and writes that to the file. The loop that moves them runs
while `restSize` is not 0 and never lowers it: where it runs at all it does not stop at the last
record, and takes the front of an empty queue. A drain is right exactly where it finds nothing
(`drains_iff`), and the logger writes no record in any run (`file_eq_nil`).
-/

namespace DdingGameServer

namespace RIOCore

universe u

/-- What `WaitForMultipleObjects` returns. -/
inductive Handle
  | LOG_HANDLE
  | STOP_HANDLE
  deriving DecidableEq, Repr

/-- Where the logger thread is. -/
inductive LoggerPhase
  /-- In `WaitForMultipleObjects`. -/
  | waiting
  /-- Before the drain of `WriteLogImpl`. -/
  | woken (result : Handle)
  /-- Behind it. -/
  | writing (result : Handle)
  | stopped
  /-- The front of an empty queue was taken. -/
  | undefined
  deriving DecidableEq, Repr

/-- `Logger`, and its run so far. -/
structure Logger (Record : Type u) where
  logWaitingQueue : List Record
  /-- `loggerEventHandles`. -/
  logHandle : Bool
  stopHandle : Bool
  waitingLogList : List Record
  logFileStream : List Record
  phase : LoggerPhase
  /-- Every record that was put into the queue, in order, -/
  enqueued : List Record
  /-- and those that were when the last drain began. -/
  beforeDrain : List Record
  deriving DecidableEq, Repr

inductive LoggerEvent (Record : Type u)
  /-- `WriteLog`, by any thread. -/
  | writeLog (logObject : Record)
  /-- `StopLoggerThread`, up to its `join`. -/
  | stopLoggerThread
  /-- `WaitForMultipleObjects` returns. -/
  | wake
  /-- The drain of `WriteLogImpl`, under `logQueueLock`. -/
  | drain
  /-- The rest of `WriteLogImpl`, and of the turn of `Worker`. -/
  | write
  deriving DecidableEq, Repr

variable {Record : Type u}

/-- The loop of the drain: the queue and the list it leaves, `none` where it takes the front of an
empty queue. -/
def drainLoop (restSize : ℕ) : List Record → List Record → Option (List Record × List Record)
  | [], waitingLogList => if 0 < restSize then none else some ([], waitingLogList)
  | front :: rest, waitingLogList =>
    if 0 < restSize then drainLoop restSize rest (waitingLogList ++ [front])
    else some (front :: rest, waitingLogList)

/-- The drain of `WriteLogImpl`. -/
def drainQueue (logWaitingQueue waitingLogList : List Record) :
    Option (List Record × List Record) :=
  let restSize := logWaitingQueue.length
  drainLoop restSize logWaitingQueue waitingLogList

namespace Logger

/-- The logger thread starts; the queue may hold records already. -/
def start (logWaitingQueue : List Record) : Logger Record where
  logWaitingQueue := logWaitingQueue
  logHandle := false
  stopHandle := false
  waitingLogList := []
  logFileStream := []
  phase := .waiting
  enqueued := logWaitingQueue
  beforeDrain := []

/-- `WaitForMultipleObjects`: the first handle that is set, which it resets. -/
def waitForMultipleObjects (l : Logger Record) : Option (Handle × Logger Record) :=
  if l.logHandle then some (.LOG_HANDLE, { l with logHandle := false })
  else if l.stopHandle then some (.STOP_HANDLE, { l with stopHandle := false })
  else none

/-- `WriteLog`. -/
def writeLog (l : Logger Record) (logObject : Record) : Logger Record :=
  { l with
    logWaitingQueue := l.logWaitingQueue ++ [logObject]
    logHandle := true
    enqueued := l.enqueued ++ [logObject] }

/-- The drain of `WriteLogImpl`. -/
def drain (l : Logger Record) (result : Handle) : Logger Record :=
  match drainQueue l.logWaitingQueue l.waitingLogList with
  | some (logWaitingQueue, waitingLogList) =>
    { l with
      logWaitingQueue := logWaitingQueue
      waitingLogList := waitingLogList
      phase := .writing result
      beforeDrain := l.enqueued }
  | none => { l with phase := .undefined }

/-- `WriteLogToFile` of each record of the list, and then the next turn, or the end. -/
def write (l : Logger Record) : Handle → Logger Record
  | .LOG_HANDLE =>
    { l with
      logFileStream := l.logFileStream ++ l.waitingLogList
      waitingLogList := []
      phase := .waiting }
  | .STOP_HANDLE =>
    { l with
      logFileStream := l.logFileStream ++ l.waitingLogList
      stopHandle := true
      phase := .stopped }

end Logger

/-- **The logger**, in any interleaving of its thread with the others. -/
def loggers : System (Logger Record) (LoggerEvent Record) where
  Init l := ∃ logWaitingQueue, l = .start logWaitingQueue
  step l e :=
    match l.phase, e with
    -- the drain that is lost in the queue holds the lock of the queue
    | .undefined, _ => none
    | _, .writeLog logObject => some (l.writeLog logObject)
    | _, .stopLoggerThread => some { l with stopHandle := true }
    | .waiting, .wake => l.waitForMultipleObjects.map fun r => { r.2 with phase := .woken r.1 }
    | .woken result, .drain => some (l.drain result)
    | .writing result, .write => some (l.write result)
    | _, _ => none

/-- **The drain does what it is for**: it ends with the queue empty and all of it moved in order. -/
def Drains (logWaitingQueue waitingLogList : List Record) : Prop :=
  drainQueue logWaitingQueue waitingLogList = some ([], waitingLogList ++ logWaitingQueue)

/-- **Every record is written**: no drain takes from an empty queue, records are written in the
order they were put in, and once the thread has stopped each that was before its last drain is
written, once. -/
structure Writes (l : Logger Record) : Prop where
  defined : l.phase ≠ .undefined
  inOrder : l.logFileStream <+: l.enqueued
  written : l.phase = .stopped → l.logFileStream = l.beforeDrain

/-- A drain finds the queue empty. -/
def DrainsNone (l : Logger Record) (e : LoggerEvent Record) : Prop :=
  e = .drain → l.logWaitingQueue = []

instance [DecidableEq Record] (l : Logger Record) (e : LoggerEvent Record) :
    Decidable (DrainsNone l e) :=
  inferInstanceAs (Decidable (e = .drain → l.logWaitingQueue = []))

variable {logWaitingQueue waitingLogList : List Record} {l l' : Logger Record}
  {e : LoggerEvent Record} {es : List (LoggerEvent Record)} {result : Handle}

/-! ## The drain -/

/-- **A drain that begins does not end.** -/
theorem drainLoop_of_pos {restSize : ℕ} (h : 0 < restSize) :
    drainLoop restSize logWaitingQueue waitingLogList = none := by
  induction logWaitingQueue generalizing waitingLogList with
  | nil => rw [drainLoop, if_pos h]
  | cons front rest ih => rw [drainLoop, if_pos h, ih]

@[simp] theorem drainQueue_nil : drainQueue [] waitingLogList = some ([], waitingLogList) := rfl

theorem drainQueue_of_ne_nil (h : logWaitingQueue ≠ []) :
    drainQueue logWaitingQueue waitingLogList = none :=
  drainLoop_of_pos (List.length_pos_iff.mpr h)

/-- **The drain is right exactly where the queue is empty.** -/
theorem drains_iff : Drains logWaitingQueue waitingLogList ↔ logWaitingQueue = [] := by
  constructor
  · intro h
    by_contra hne
    unfold Drains at h
    rw [drainQueue_of_ne_nil hne] at h
    cases h
  · rintro rfl
    rw [Drains, drainQueue_nil, List.append_nil]

/-- What a drain leaves. -/
theorem drain_of_nil (h : l.logWaitingQueue = []) :
    l.drain result = { l with phase := .writing result, beforeDrain := l.enqueued } := by
  obtain ⟨queue, logHandle, stopHandle, waiting, file, phase, enqueued, beforeDrain⟩ := l
  obtain rfl : queue = [] := h
  rfl

theorem drain_of_ne_nil (h : l.logWaitingQueue ≠ []) :
    l.drain result = { l with phase := .undefined } := by
  simp only [Logger.drain, drainQueue_of_ne_nil h]

/-! ## Whole runs -/

/-- As long as the thread is defined nothing has left the queue. -/
structure Untouched (l : Logger Record) : Prop where
  queue : l.logWaitingQueue = l.enqueued
  waiting : l.waitingLogList = []
  file : l.logFileStream = []
  before : l.beforeDrain = []

theorem Untouched.start : Untouched (Logger.start logWaitingQueue) := ⟨rfl, rfl, rfl, rfl⟩

/-- What one step can do. -/
theorem loggers_step (hs : loggers.step l e = some l') :
    l.phase ≠ .undefined ∧
      ((∃ logObject, e = .writeLog logObject ∧ l' = l.writeLog logObject) ∨
        (e = .stopLoggerThread ∧ l' = { l with stopHandle := true }) ∨
        (e = .wake ∧ ∃ logHandle stopHandle result, l' = { l with
          logHandle := logHandle, stopHandle := stopHandle, phase := .woken result }) ∨
        (e = .drain ∧ ∃ result, l' = l.drain result) ∨
        e = .write ∧ ∃ result, l' = l.write result) := by
  have hphase : l.phase ≠ .undefined := by
    intro h
    simp only [loggers, h] at hs
    cases hs
  refine ⟨hphase, ?_⟩
  cases e with
  | writeLog logObject =>
    refine .inl ⟨logObject, rfl, ?_⟩
    cases hp : l.phase <;> simp_all [loggers]
  | stopLoggerThread =>
    refine .inr (.inl ⟨rfl, ?_⟩)
    cases hp : l.phase <;> simp_all [loggers]
  | wake =>
    refine .inr (.inr (.inl ⟨rfl, ?_⟩))
    cases hp : l.phase with
    | waiting =>
      simp only [loggers, hp] at hs
      obtain ⟨⟨result, l₁⟩, hl₁, rfl⟩ := Option.map_eq_some_iff.mp hs
      unfold Logger.waitForMultipleObjects at hl₁
      split at hl₁
      · cases hl₁
        exact ⟨false, l.stopHandle, .LOG_HANDLE, rfl⟩
      · split at hl₁
        · cases hl₁
          exact ⟨l.logHandle, false, .STOP_HANDLE, rfl⟩
        · cases hl₁
    | woken _ | writing _ | stopped | undefined => simp only [loggers, hp] at hs; cases hs
  | drain =>
    refine .inr (.inr (.inr (.inl ⟨rfl, ?_⟩)))
    cases hp : l.phase with
    | woken result =>
      simp only [loggers, hp] at hs
      exact ⟨result, (Option.some.inj hs).symm⟩
    | waiting | writing _ | stopped | undefined => simp only [loggers, hp] at hs; cases hs
  | write =>
    refine .inr (.inr (.inr (.inr ⟨rfl, ?_⟩)))
    cases hp : l.phase with
    | writing result =>
      simp only [loggers, hp] at hs
      exact ⟨result, (Option.some.inj hs).symm⟩
    | waiting | woken _ | stopped | undefined => simp only [loggers, hp] at hs; cases hs

theorem DrainsNone.of_ne (h : e ≠ .drain) : DrainsNone l e := fun heq => absurd heq h

/-- A step is defined where its drain finds nothing, and then nothing leaves the queue. -/
theorem Untouched.step (h : Untouched l) (hs : loggers.step l e = some l') :
    (l'.phase = .undefined ∧ e = .drain ∧ l.logWaitingQueue ≠ [] ∧ l'.logFileStream = []) ∨
      (l'.phase ≠ .undefined ∧ DrainsNone l e ∧ Untouched l') := by
  obtain ⟨hphase, hcases⟩ := loggers_step hs
  rcases hcases with ⟨logObject, rfl, rfl⟩ | ⟨rfl, rfl⟩ |
    ⟨rfl, logHandle, stopHandle, result, rfl⟩ | ⟨rfl, result, rfl⟩ | ⟨rfl, result, rfl⟩
  · refine .inr ⟨hphase, .of_ne (by simp), ?_, h.waiting, h.file, h.before⟩
    rw [Logger.writeLog, h.queue]
  · exact .inr ⟨hphase, .of_ne (by simp), h.queue, h.waiting, h.file, h.before⟩
  · exact .inr ⟨by simp, .of_ne (by simp), h.queue, h.waiting, h.file, h.before⟩
  · by_cases hnil : l.logWaitingQueue = []
    · rw [drain_of_nil hnil]
      refine .inr ⟨by simp, fun _ => hnil, h.queue, h.waiting, h.file, ?_⟩
      rw [← h.queue, hnil]
    · rw [drain_of_ne_nil hnil]
      exact .inl ⟨rfl, rfl, hnil, h.file⟩
  · have hfile : l.logFileStream ++ l.waitingLogList = [] := by rw [h.file, h.waiting]; rfl
    cases result with
    | LOG_HANDLE =>
      exact .inr ⟨by simp [Logger.write], .of_ne (by simp), h.queue, rfl, hfile, h.before⟩
    | STOP_HANDLE =>
      exact .inr ⟨by simp [Logger.write], .of_ne (by simp), h.queue, h.waiting, hfile, h.before⟩

/-- **Every step leaves the thread undefined, or nothing touched.** -/
theorem untouched_or_undefined (h : l.phase ≠ .undefined → Untouched l)
    (hs : loggers.step l e = some l') : l'.phase ≠ .undefined → Untouched l' := by
  intro hphase
  rcases (h (loggers_step hs).1).step hs with ⟨hundefined, -⟩ | ⟨-, -, huntouched⟩
  · exact absurd hundefined hphase
  · exact huntouched

/-- **The logger writes no record**, in any run. -/
theorem file_eq_nil (h : loggers.Reachable l) : l.logFileStream = [] := by
  refine (System.ReachableUnder.invariant
    (P := fun l => l.logFileStream = [] ∧ (l.phase ≠ .undefined → Untouched l)) ?_ ?_ h).1
  · rintro l ⟨logWaitingQueue, rfl⟩
    exact ⟨rfl, fun _ => .start⟩
  · rintro l e l' ⟨-, huntouched⟩ - hs
    refine ⟨?_, untouched_or_undefined huntouched hs⟩
    rcases (huntouched (loggers_step hs).1).step hs with ⟨-, -, -, hfile⟩ | ⟨-, -, h⟩
    · exact hfile
    · exact h.file

/-- Where nothing is touched nothing is owed. -/
theorem Untouched.writes (h : Untouched l) (hphase : l.phase ≠ .undefined) : Writes l := by
  refine ⟨hphase, ?_, fun _ => ?_⟩
  · rw [h.file]
    exact List.nil_prefix
  · rw [h.file, h.before]

/-- **The drain is right exactly where it finds nothing, and every record is written, in all of a
run, exactly where every drain of the run finds nothing.** -/
theorem writes_iff (hr : loggers.run (.start logWaitingQueue) es = some l) :
    (∀ logWaitingQueue waitingLogList : List Record,
      Drains logWaitingQueue waitingLogList ↔ logWaitingQueue = []) ∧
    (loggers.Throughout Writes (.start logWaitingQueue) es ↔
      loggers.Meets DrainsNone (.start logWaitingQueue) es) := by
  refine ⟨fun _ _ => drains_iff, ?_⟩
  refine System.throughout_iff_meets (I := fun l => l.phase ≠ .undefined → Untouched l)
    (fun l e l' h hs => untouched_or_undefined h hs) ?_ hr (fun _ => .start) ?_
  · intro l e l' h hwrites hs
    rcases (h hwrites.defined).step hs with ⟨hundefined, rfl, hne, -⟩ | ⟨hphase, hnone, h'⟩
    · exact iff_of_false (fun hw => hw.defined hundefined) fun hnone => hne (hnone rfl)
    · exact iff_of_true (h'.writes hphase) hnone
  · exact Untouched.start.writes (by simp [Logger.start])

/-- A logger that is stopped before anything is put in, and into which a record is put too late. -/
theorem writes_stopped :
    ∃ l, loggers.run (.start []) [.stopLoggerThread, .wake, .drain, .writeLog 7, .write] = some l ∧
      l.phase = .stopped ∧ loggers.Throughout Writes (.start [])
        [.stopLoggerThread, .wake, .drain, .writeLog 7, .write] := by
  obtain ⟨l, hmeets, hr, hphase⟩ := System.exists_run loggers
    [.stopLoggerThread, .wake, .drain, .writeLog 7, .write]
    (c := fun (l : Logger ℕ) e => decide (DrainsNone l e))
    (f := fun l => decide (l.phase = .stopped)) (s := .start []) (by decide +kernel)
  exact ⟨l, hr, of_decide_eq_true hphase,
    (writes_iff hr).2.mpr (hmeets.mono fun _ _ => of_decide_eq_true)⟩

/-- **A record is put in and the logger woken**: the drain takes it, and goes on. -/
theorem not_writes_one :
    ∃ l, loggers.run (.start []) [.writeLog 7, .wake, .drain] = some l ∧
      ¬ Drains [7] [] ∧ ¬ Writes l := by
  refine ⟨_, rfl, ?_, fun h => h.defined rfl⟩
  rw [drains_iff]
  exact fun heq => by cases heq

end RIOCore

end DdingGameServer
