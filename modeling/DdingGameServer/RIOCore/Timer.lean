import DdingGameServer.Common.KeyMap
import DdingGameServer.Common.System
import Mathlib.Order.BooleanAlgebra.Set
/-!
# Timers — a list that nothing enters

`TimerManager` keeps the registered timers in a map and the scheduled ones in a list, by wake-up
time. `ResumeTimer` is the one function that puts a timer into the list, and it does not: its test
of `find` is the wrong way round, so a registered id is turned down and an unregistered one is read
through the end iterator; and its loop compares the timer with itself, so it inserts nowhere. The
list stays empty in every run (`timerList_eq_nil`), and the manager follows the schedule it is for
exactly in the runs that resume nothing (`followsSchedule_iff`).
-/

namespace DdingGameServer

namespace RIOCore

/-- A `Timer`, known by the id its constructor draws. -/
structure Timer where
  timerId : UInt64
  deriving DecidableEq, Repr

/-- `TimerManager`, with the wake-up time each timer carries. -/
structure TimerManager where
  wakeUpTime : Timer → Int64
  timerList : List Timer
  registeredTimerMap : KeyMap UInt64 Timer

namespace TimerManager

/-- No timer is registered; the constructor of `Timer` sets the wake-up time to 0. -/
def empty : TimerManager := ⟨fun _ => 0, [], .empty⟩

/-- `SetNextWakeUpTime`, of one timer. -/
def setNextWakeUpTime (m : TimerManager) (timer : Timer) (nextWakeUpTime : Int64) : TimerManager :=
  { m with wakeUpTime := Function.update m.wakeUpTime timer nextWakeUpTime }

/-- The loop of `GetExpiredTimer` from `iter` on: what it appends to `outList` and what it leaves,
`none` where it goes on from an element it has popped. -/
def expireLoop (wakeUpTime : Timer → Int64) (nowTick : Int64) :
    List Timer → Option (List Timer × List Timer)
  | [] => some ([], [])
  | iter :: rest => if wakeUpTime iter < nowTick then none else some ([], iter :: rest)

/-- `GetExpiredTimer`. -/
def getExpiredTimer (m : TimerManager) (nowTick : Int64) : Option (List Timer × TimerManager) :=
  (expireLoop m.wakeUpTime nowTick m.timerList).map fun r => (r.1, { m with timerList := r.2 })

/-- `RegisterTimer`. -/
def registerTimer (m : TimerManager) (timer : Timer) : TimerManager :=
  { m with registeredTimerMap := m.registeredTimerMap.insert timer.timerId timer }

/-- The loop of `ResumeTimer` from `iter` on: `timer` is compared with itself. -/
def insertLoop (wakeUpTime : Timer → Int64) (timer : Timer) : List Timer → List Timer
  | [] => []
  | iter :: rest =>
    if wakeUpTime timer < wakeUpTime timer then timer :: iter :: rest
    else iter :: insertLoop wakeUpTime timer rest

/-- `ResumeTimer`. `endIter` is what reading through the end iterator gives, `none` where that ends
the process. -/
def resumeTimer (m : TimerManager) (timerId : UInt64) (endIter : Option Timer) :
    Option (Bool × TimerManager) :=
  match m.registeredTimerMap.find timerId with
  | some _ => some (false, m)
  | none => endIter.map fun timer =>
      (true, { m with timerList := insertLoop m.wakeUpTime timer m.timerList })

/-- `StopTimer`. -/
def stopTimer (m : TimerManager) (timerId : UInt64) : TimerManager :=
  { m with timerList := m.timerList.eraseP fun timer => timer.timerId = timerId }

/-- `DeregisterTimer`. -/
def deregisterTimer (m : TimerManager) (timerId : UInt64) : TimerManager :=
  let m := m.stopTimer timerId
  { m with registeredTimerMap := m.registeredTimerMap.erase timerId }

end TimerManager

inductive TimerEvent
  | registerTimer (timer : Timer)
  | setNextWakeUpTime (timer : Timer) (nextWakeUpTime : Int64)
  | resumeTimer (timerId : UInt64) (endIter : Option Timer)
  | stopTimer (timerId : UInt64)
  | deregisterTimer (timerId : UInt64)
  /-- A turn of `RunTimerThread`. -/
  | tick (nowTick : Int64)
  deriving DecidableEq, Repr

/-- The event is a `ResumeTimer`. -/
def TimerEvent.resumes : TimerEvent → Bool
  | .resumeTimer _ _ => true
  | _ => false

/-- What an event answers: what `ResumeTimer` returns, whose `OnTimer` a tick calls. -/
structure Answer where
  resumed : Option Bool
  onTimer : List Timer
  deriving DecidableEq, Repr

namespace TimerManager

/-- What an event answers and leaves. -/
def handle (m : TimerManager) : TimerEvent → Option (Answer × TimerManager)
  | .registerTimer timer => some (⟨none, []⟩, m.registerTimer timer)
  | .setNextWakeUpTime timer nextWakeUpTime =>
    some (⟨none, []⟩, m.setNextWakeUpTime timer nextWakeUpTime)
  | .resumeTimer timerId endIter =>
    (m.resumeTimer timerId endIter).map fun r => (⟨some r.1, []⟩, r.2)
  | .stopTimer timerId => some (⟨none, []⟩, m.stopTimer timerId)
  | .deregisterTimer timerId => some (⟨none, []⟩, m.deregisterTimer timerId)
  | .tick nowTick => (m.getExpiredTimer nowTick).map fun r => (⟨none, r.1⟩, r.2)

end TimerManager

/-! ## The schedule a timer manager is for -/

/-- **A schedule**: the ids that are registered, the ids that wait, and until when. -/
structure Schedule where
  wakeUpTime : Timer → Int64
  registered : Set UInt64
  scheduled : Set UInt64

namespace Schedule

def empty : Schedule := ⟨fun _ => 0, ∅, ∅⟩

/-- The timers a tick at `nowTick` is due to call. -/
def due (sch : Schedule) (nowTick : Int64) : Set UInt64 :=
  {id | id ∈ sch.scheduled ∧ sch.wakeUpTime ⟨id⟩ < nowTick}

/-- What an event makes of a schedule. -/
def next (sch : Schedule) : TimerEvent → Schedule
  | .registerTimer timer => { sch with registered := insert timer.timerId sch.registered }
  | .setNextWakeUpTime timer nextWakeUpTime =>
    { sch with wakeUpTime := Function.update sch.wakeUpTime timer nextWakeUpTime }
  | .resumeTimer timerId _ =>
    { sch with scheduled := {id | id ∈ sch.scheduled ∨ id = timerId ∧ id ∈ sch.registered} }
  | .stopTimer timerId => { sch with scheduled := sch.scheduled \ {timerId} }
  | .deregisterTimer timerId =>
    { sch with registered := sch.registered \ {timerId}
               scheduled := sch.scheduled \ {timerId} }
  | .tick nowTick => { sch with scheduled := sch.scheduled \ sch.due nowTick }

/-- What an event is to answer: `ResumeTimer` whether the id is registered, a tick with one call for
each timer that is due. -/
def Answers (sch : Schedule) (answer : Answer) : TimerEvent → Prop
  | .resumeTimer timerId _ => answer.resumed = some true ↔ timerId ∈ sch.registered
  | .tick nowTick => answer.onTimer.Nodup ∧
      ∀ timer, timer ∈ answer.onTimer ↔ timer.timerId ∈ sch.due nowTick
  | _ => True

end Schedule

/-- `timerList` is the schedule: in the order of the wake-up times, and of the timers that wait. -/
structure Lists (m : TimerManager) (sch : Schedule) : Prop where
  sorted : m.timerList.Pairwise fun timer timer' => m.wakeUpTime timer ≤ m.wakeUpTime timer'
  mem : ∀ timer, timer ∈ m.timerList ↔ timer.timerId ∈ sch.scheduled

/-- The manager beside the schedule. -/
structure Timers where
  manager : TimerManager
  schedule : Schedule

/-- **The timer manager**, called in any order, and the schedule of the same calls. -/
def timers : System Timers TimerEvent where
  Init s := s = ⟨.empty, .empty⟩
  step s e := (s.manager.handle e).map fun r => ⟨r.2, s.schedule.next e⟩

/-- An event is served as the schedule has it: it is answered, rightly, and leaves the list that the
schedule has then. -/
def Served (s : Timers) (e : TimerEvent) : Prop :=
  ∃ answer m, s.manager.handle e = some (answer, m) ∧ s.schedule.Answers answer e ∧
    Lists m (s.schedule.next e)

/-- **The manager follows the schedule** through all of a run. -/
def FollowsSchedule (es : List TimerEvent) : Prop :=
  timers.Meets Served ⟨.empty, .empty⟩ es

variable {m m' : TimerManager} {sch : Schedule} {s s' : Timers}
  {e : TimerEvent} {es : List TimerEvent} {answer : Answer}

/-! ## The list -/

/-- No timer wakes up after itself. -/
theorem insertLoop_eq (wakeUpTime : Timer → Int64) (timer : Timer) (l : List Timer) :
    TimerManager.insertLoop wakeUpTime timer l = l := by
  induction l with
  | nil => rfl
  | cons iter rest ih =>
    rw [TimerManager.insertLoop, if_neg Int64.lt_irrefl, ih]

/-- **`ResumeTimer` changes nothing**, and its answer is yes to the ids that are not registered. -/
theorem eq_of_resumeTimer {timerId : UInt64} {endIter : Option Timer} {b : Bool}
    (h : m.resumeTimer timerId endIter = some (b, m')) :
    b = (m.registeredTimerMap.find timerId).isNone ∧ m' = m := by
  cases hfind : m.registeredTimerMap.find timerId with
  | some timer =>
    simp only [TimerManager.resumeTimer, hfind] at h
    cases h
    exact ⟨rfl, rfl⟩
  | none =>
    simp only [TimerManager.resumeTimer, hfind, insertLoop_eq] at h
    obtain ⟨timer, -, heq⟩ := Option.map_eq_some_iff.mp h
    cases heq
    exact ⟨rfl, rfl⟩

/-- A tick finds an empty list empty. -/
theorem getExpiredTimer_of_nil {nowTick : Int64} (hnil : m.timerList = []) :
    m.getExpiredTimer nowTick = some ([], m) := by
  simp only [TimerManager.getExpiredTimer, hnil, TimerManager.expireLoop, Option.map_some]
  rw [← hnil]

/-- **No event puts a timer into an empty list**, and none calls an `OnTimer` from it. -/
theorem handle_of_nil (hnil : m.timerList = []) (h : m.handle e = some (answer, m')) :
    m'.timerList = [] ∧ answer.onTimer = [] := by
  cases e with
  | registerTimer _ | setNextWakeUpTime _ _ =>
    cases h
    exact ⟨hnil, rfl⟩
  | resumeTimer timerId endIter =>
    obtain ⟨⟨b, m₁⟩, hm₁, heq⟩ := Option.map_eq_some_iff.mp h
    cases heq
    exact ⟨by rw [(eq_of_resumeTimer hm₁).2, hnil], rfl⟩
  | stopTimer _ | deregisterTimer _ =>
    cases h
    exact ⟨by simp [TimerManager.deregisterTimer, TimerManager.stopTimer, hnil], rfl⟩
  | tick nowTick =>
    rw [TimerManager.handle, getExpiredTimer_of_nil hnil] at h
    cases h
    exact ⟨hnil, rfl⟩

/-- **The list is empty in every run.** -/
theorem timerList_eq_nil (h : timers.Reachable s) : s.manager.timerList = [] := by
  refine System.ReachableUnder.invariant (P := fun s => s.manager.timerList = []) ?_ ?_ h
  · rintro s rfl
    rfl
  · intro s e s' hnil _ hs
    obtain ⟨⟨answer, m⟩, hm, rfl⟩ := Option.map_eq_some_iff.mp hs
    exact (handle_of_nil hnil hm).1

/-! ## The registered ids -/

/-- The map holds the ids that are registered. -/
def Registers (s : Timers) : Prop :=
  ∀ id, id ∈ s.schedule.registered ↔ (s.manager.registeredTimerMap.find id).isSome = true

/-- **Every event keeps the map to the ids that are registered.** -/
theorem Registers.step (h : Registers s) (hs : timers.step s e = some s') :
    Registers s' := by
  obtain ⟨⟨answer, m⟩, hm, rfl⟩ := Option.map_eq_some_iff.mp hs
  intro id
  have hid := h id
  cases e with
  | registerTimer timer =>
    cases hm
    show id ∈ insert timer.timerId s.schedule.registered ↔
      ((s.manager.registeredTimerMap.insert timer.timerId timer).find id).isSome = true
    rw [KeyMap.isSome_find_insert, Set.mem_insert_iff, hid]
  | resumeTimer timerId endIter =>
    obtain ⟨⟨b, m₁⟩, hm₁, heq⟩ := Option.map_eq_some_iff.mp hm
    cases heq
    rw [(eq_of_resumeTimer hm₁).2]
    exact hid
  | deregisterTimer timerId =>
    cases hm
    show id ∈ s.schedule.registered \ {timerId} ↔
      ((s.manager.registeredTimerMap.erase timerId).find id).isSome = true
    rw [KeyMap.isSome_find_erase, Set.mem_sdiff, Set.mem_singleton_iff, hid, and_comm]
  | tick nowTick =>
    obtain ⟨⟨expired, m₁⟩, hm₁, heq⟩ := Option.map_eq_some_iff.mp hm
    cases heq
    obtain ⟨r, -, heq⟩ := Option.map_eq_some_iff.mp hm₁
    cases heq
    exact hid
  | setNextWakeUpTime _ _ | stopTimer _ =>
    cases hm
    exact hid

/-- **A resume is never served rightly**: a registered id is turned down, and for another the answer
is yes, or none comes. -/
theorem not_served_of_resumes (h : Registers s) (he : e.resumes = true) :
    ¬ Served s e := by
  cases e with
  | resumeTimer timerId endIter =>
    rintro ⟨answer, m, hm, hanswer, -⟩
    obtain ⟨⟨b, m₁⟩, hm₁, heq⟩ := Option.map_eq_some_iff.mp hm
    cases heq
    have hiff : some b = some true ↔ timerId ∈ s.schedule.registered := hanswer
    rw [h timerId, (eq_of_resumeTimer hm₁).1] at hiff
    cases hfind : s.manager.registeredTimerMap.find timerId <;> simp [hfind] at hiff
  | registerTimer _ | setNextWakeUpTime _ _ | stopTimer _ | deregisterTimer _ | tick _ => cases he

/-! ## Runs that resume nothing -/

/-- Nothing waits, and nothing is listed. -/
structure Idle (s : Timers) : Prop where
  timerList : s.manager.timerList = []
  scheduled : s.schedule.scheduled = ∅

/-- Only a resume schedules. -/
theorem scheduled_next (hidle : sch.scheduled = ∅) (he : e.resumes = false) :
    (sch.next e).scheduled = ∅ := by
  cases e with
  | resumeTimer timerId endIter => cases he
  | registerTimer _ | setNextWakeUpTime _ _ => exact hidle
  | stopTimer _ | deregisterTimer _ | tick _ => simp [Schedule.next, hidle]

theorem Idle.step (h : Idle s) (he : e.resumes = false)
    (hs : timers.step s e = some s') : Idle s' := by
  obtain ⟨⟨answer, m⟩, hm, rfl⟩ := Option.map_eq_some_iff.mp hs
  exact ⟨(handle_of_nil h.timerList hm).1, scheduled_next h.scheduled he⟩

/-- Every event but a resume is answered. -/
theorem exists_handle (hnil : m.timerList = []) (he : e.resumes = false) :
    ∃ answer m', m.handle e = some (answer, m') := by
  cases e with
  | resumeTimer timerId endIter => cases he
  | tick nowTick =>
    exact ⟨⟨none, []⟩, m, by rw [TimerManager.handle, getExpiredTimer_of_nil hnil]; rfl⟩
  | registerTimer _ | setNextWakeUpTime _ _ | stopTimer _ | deregisterTimer _ => exact ⟨_, _, rfl⟩

/-- **Every event but a resume is served rightly** where nothing waits. -/
theorem Idle.served (h : Idle s) (he : e.resumes = false) : Served s e := by
  obtain ⟨answer, m, hm⟩ := exists_handle h.timerList he
  obtain ⟨hlist, honTimer⟩ := handle_of_nil h.timerList hm
  refine ⟨answer, m, hm, ?_, ?_⟩
  · cases e with
    | resumeTimer timerId endIter => cases he
    | tick nowTick =>
      refine ⟨by rw [honTimer]; exact .nil, fun timer => ?_⟩
      simp [honTimer, Schedule.due, h.scheduled]
    | registerTimer _ | setNextWakeUpTime _ _ | stopTimer _ | deregisterTimer _ => trivial
  · refine ⟨?_, fun timer => ?_⟩
    · rw [hlist]
      exact .nil
    · simp [hlist, scheduled_next h.scheduled he]

/-- **The manager follows its schedule exactly in the runs that resume nothing.** -/
theorem followsSchedule_iff : FollowsSchedule es ↔ ∀ e ∈ es, e.resumes = false := by
  constructor
  · intro h
    have hinit : Registers ⟨.empty, .empty⟩ := fun id => by
      simp [Schedule.empty, TimerManager.empty]
    have hmeets : timers.Meets (fun s e => Served s e ∧ e.resumes = false)
        ⟨.empty, .empty⟩ es := by
      refine h.of_invariant (P := Registers) (fun s e s' hr _ hs => hr.step hs)
        (fun s e hr hserved => ⟨hserved, ?_⟩) hinit
      exact Bool.eq_false_iff.mpr fun he => not_served_of_resumes hr he hserved
    refine hmeets.forall_mem fun s e he => ⟨he.2, ?_⟩
    obtain ⟨answer, m, hm, -⟩ := he.1
    exact ⟨⟨m, s.schedule.next e⟩, Option.map_eq_some_iff.mpr ⟨(answer, m), hm, rfl⟩⟩
  · intro h
    have hmeets := @System.meets_of_forall _ _ timers ⟨.empty, .empty⟩ _ _ h
    exact hmeets.of_invariant (P := Idle) (fun s e s' hidle he hs => hidle.step he hs)
      (fun s e hidle he => hidle.served he) ⟨rfl, rfl⟩

/-- **A registered timer is not resumed.** -/
theorem not_followsSchedule_resume :
    ¬ FollowsSchedule [.registerTimer ⟨1⟩, .resumeTimer 1 none] := by
  rintro ⟨-, hrest⟩
  obtain ⟨⟨answer, m, hm, hanswer, -⟩, -⟩ := hrest _ rfl
  cases hm
  have hfalse : some false = some true := hanswer.mpr (Set.mem_insert _ _)
  cases hfalse

end RIOCore

end DdingGameServer
