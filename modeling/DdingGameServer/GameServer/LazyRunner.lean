import DdingGameServer.Common.PriorityQueue
import DdingGameServer.Common.System
/-!
# Lazy DB jobs — runners that wait for their time

A `PC` keeps its `DBJobTimeLazyRunner`s in a `std::priority_queue` ordered by `std::less`, and fires
them from the top while `CheckFireState` says so. The top is the runner with the greatest
`minFireTime`, and `CheckFireState` holds as long as that time is still to come: a call at `now`
fires what is not due, the latest first, and keeps what is due (`fireLazyRunner_contents`). So it
does what it is for exactly where there is nothing to do (`firesWhenDue_iff`).

The priority queue is any that keeps its promises; a batch of jobs is known by what firing it
returns and by the names of its jobs.
-/

namespace DdingGameServer

namespace GameServer

universe u w

/-- What is called of a `BatchedDBJob`. -/
structure BatchedDBJobs (Job : Type u) where
  /-- `ExecuteBatchJob`, the `ERROR_CODE` it returns. -/
  executeBatchJob : Job → UInt16
  getJobNameList : Job → List String

/-- `ERROR_CODE::SUCCESS`. -/
def errorCodeSuccess : UInt16 := 0

/-- `IsSuccess`. -/
def isSuccess (errorCode : UInt16) : Bool := errorCode = errorCodeSuccess

/-- `DBJobTimeLazyRunner`. -/
structure DBJobTimeLazyRunner (Job : Type u) where
  batchedDBJob : Job
  beginTime : UInt64
  delayMillisecond : UInt64
  minFireTime : UInt64
  deriving DecidableEq, Repr

namespace DBJobTimeLazyRunner

variable {Job : Type u}

/-- The constructor. -/
def new (inOwner : Job) (inBeginTime inDelayMillisecond : UInt64) : DBJobTimeLazyRunner Job where
  batchedDBJob := inOwner
  beginTime := inBeginTime
  delayMillisecond := inDelayMillisecond
  minFireTime := inBeginTime + inDelayMillisecond

/-- `CheckFireState`. -/
def checkFireState (r : DBJobTimeLazyRunner Job) (now : UInt64) : Bool := now < r.minFireTime

/-- `operator<`. -/
def lessThan (r other : DBJobTimeLazyRunner Job) : Bool := r.minFireTime < other.minFireTime

/-- What the queue is ordered by. -/
def key (r : DBJobTimeLazyRunner Job) : ℕ := r.minFireTime.toNat

/-- The order of the keys is `operator<`. -/
theorem lessThan_iff {r other : DBJobTimeLazyRunner Job} :
    r.lessThan other = true ↔ r.key < other.key := by
  rw [lessThan, decide_eq_true_eq, UInt64.lt_iff_toNat_lt]
  exact Iff.rfl

/-- A runner that can fire lets every later one fire. -/
theorem checkFireState_of_key_le {r other : DBJobTimeLazyRunner Job} {now : UInt64}
    (hle : other.key ≤ r.key) (h : other.checkFireState now = true) :
    r.checkFireState now = true := by
  rw [checkFireState, decide_eq_true_eq, UInt64.lt_iff_toNat_lt] at h ⊢
  exact h.trans_le hle

end DBJobTimeLazyRunner

open DBJobTimeLazyRunner (key)

variable {Job : Type u} (jobs : BatchedDBJobs Job)
  (Q : PriorityQueue.{u, 0, w} (DBJobTimeLazyRunner Job) key)

/-- The log of a runner whose batch fails. -/
def fireFailedLog (error : UInt16) (jobNameList : List String) : String :=
  "LazyRunner fire failed in PC tick. Error " ++ toString error ++ ". DB job list: " ++
    String.join (jobNameList.map (· ++ " / "))

/-- What a call of `FireLazyRunnerIfConditionMet` leads to: the runners it fires, in order, what it
logs, and the holder it leaves. -/
structure FireResult where
  fired : List (DBJobTimeLazyRunner Job)
  logs : List String
  timeLazyRunnerHolder : Q.Queue

/-- The loop of `FireLazyRunnerIfConditionMet`. Each turn that goes on pops a runner, so the number
of runners is fuel enough. -/
def fireLoop (now : UInt64) : ℕ → Q.Queue → FireResult Q
  | 0, holder => ⟨[], [], holder⟩
  | n + 1, holder =>
    match Q.top holder with
    | none => ⟨[], [], holder⟩
    | some lazyRunner =>
      if lazyRunner.checkFireState now then
        let error := jobs.executeBatchJob lazyRunner.batchedDBJob
        let log := if isSuccess error then []
          else [fireFailedLog error (jobs.getJobNameList lazyRunner.batchedDBJob)]
        let rest := fireLoop now n (Q.pop holder)
        ⟨lazyRunner :: rest.fired, log ++ rest.logs, rest.timeLazyRunnerHolder⟩
      else ⟨[], [], holder⟩

/-- `FireLazyRunnerIfConditionMet`. -/
def fireLazyRunner (holder : Q.Queue) (now : UInt64) : FireResult Q :=
  fireLoop jobs Q now (Q.contents holder).card holder

inductive LazyEvent (Job : Type u)
  /-- `DBJobLazyRunnerPush`, of a runner made of these. -/
  | push (inOwner : Job) (inBeginTime inDelayMillisecond : UInt64)
  /-- `FireLazyRunnerIfConditionMet`. -/
  | fire (now : UInt64)
  deriving DecidableEq, Repr

/-- **The holder of a `PC`.** -/
def lazyRunners : System Q.Queue (LazyEvent Job) where
  Init holder := holder = Q.empty
  step holder e :=
    match e with
    | .push inOwner inBeginTime inDelayMillisecond =>
      some (Q.push holder (.new inOwner inBeginTime inDelayMillisecond))
    | .fire now => some (fireLazyRunner jobs Q holder now).timeLazyRunnerHolder

/-- **A call fires what is due**: exactly the runners whose time has come, the earliest first, and
the others stay. -/
structure FiresDue (before : Multiset (DBJobTimeLazyRunner Job)) (now : UInt64)
    (fired : List (DBJobTimeLazyRunner Job)) (after : Multiset (DBJobTimeLazyRunner Job)) :
    Prop where
  due : ∀ r, r ∈ fired ↔ r ∈ before ∧ r.minFireTime ≤ now
  ordered : fired.Pairwise fun r r' => r.minFireTime ≤ r'.minFireTime
  kept : after = before.filter fun r => now < r.minFireTime
  once : ↑fired + after = before

/-- The calls of a run fire what is due. -/
def firesDue (holder : Q.Queue) : LazyEvent Job → Prop
  | .push _ _ _ => True
  | .fire now => FiresDue (Q.contents holder) now (fireLazyRunner jobs Q holder now).fired
      (Q.contents (fireLazyRunner jobs Q holder now).timeLazyRunnerHolder)

/-- What a run fires, in order. -/
def firedIn (holder : Q.Queue) : List (LazyEvent Job) → List (DBJobTimeLazyRunner Job)
  | [] => []
  | .push inOwner inBeginTime inDelayMillisecond :: es =>
    firedIn (Q.push holder (.new inOwner inBeginTime inDelayMillisecond)) es
  | .fire now :: es => (fireLazyRunner jobs Q holder now).fired ++
      firedIn (fireLazyRunner jobs Q holder now).timeLazyRunnerHolder es

/-- The runner an event pushes. -/
def LazyEvent.pushed : LazyEvent Job → List (DBJobTimeLazyRunner Job)
  | .push inOwner inBeginTime inDelayMillisecond =>
    [.new inOwner inBeginTime inDelayMillisecond]
  | .fire _ => []

/-- **Lazy jobs fire when due**: every call of the run fires what is due, and over the whole run no
runner is fired more often than it was pushed. -/
def FiresWhenDue [DecidableEq Job] (es : List (LazyEvent Job)) : Prop :=
  (lazyRunners jobs Q).Meets (firesDue jobs Q) Q.empty es ∧
    ∀ r, (firedIn jobs Q Q.empty es).count r ≤ (es.flatMap LazyEvent.pushed).count r

/-- A call of `FireLazyRunnerIfConditionMet` finds the holder empty. -/
def findsNone (holder : Q.Queue) : LazyEvent Job → Prop
  | .push _ _ _ => True
  | .fire _ => Q.contents holder = 0

variable {jobs Q} {holder : Q.Queue} {now : UInt64} {n : ℕ} {r : DBJobTimeLazyRunner Job}
  {es : List (LazyEvent Job)}

/-! ## One call -/

/-- The loop pops while `CheckFireState` holds of the top. -/
theorem fireLoop_eq :
    (fireLoop jobs Q now n holder).fired = (Q.popWhile (·.checkFireState now) n holder).1 ∧
      (fireLoop jobs Q now n holder).timeLazyRunnerHolder =
        (Q.popWhile (·.checkFireState now) n holder).2 := by
  induction n generalizing holder with
  | zero => exact ⟨rfl, rfl⟩
  | succ n ih =>
    cases h : Q.top holder with
    | none =>
      rw [PriorityQueue.popWhile_of_none h]
      simp only [fireLoop, h, and_self]
    | some r =>
      cases hr : r.checkFireState now with
      | false =>
        rw [PriorityQueue.popWhile_of_neg h hr]
        simp only [fireLoop, h, hr, Bool.false_eq_true, if_false, and_self]
      | true =>
        rw [PriorityQueue.popWhile_of_pos h hr]
        simp only [fireLoop, h, hr, if_true]
        exact ⟨congrArg _ ih.1, ih.2⟩

/-- **A call fires the runners whose time is still to come**, -/
theorem fireLazyRunner_fired :
    ((fireLazyRunner jobs Q holder now).fired : Multiset (DBJobTimeLazyRunner Job)) =
      (Q.contents holder).filter fun r => now < r.minFireTime := by
  rw [fireLazyRunner, fireLoop_eq.1,
    PriorityQueue.popWhile_fst
      (fun r r' hle h => DBJobTimeLazyRunner.checkFireState_of_key_le hle h)
      le_rfl]
  simp only [DBJobTimeLazyRunner.checkFireState, decide_eq_true_eq]

/-- the latest first, -/
theorem fireLazyRunner_pairwise :
    (fireLazyRunner jobs Q holder now).fired.Pairwise fun r r' =>
      r'.minFireTime ≤ r.minFireTime := by
  rw [fireLazyRunner, fireLoop_eq.1]
  have hkeys := Q.popWhile_pairwise (·.checkFireState now) (Q.contents holder).card holder
  exact hkeys.imp fun h => UInt64.le_iff_toNat_le.mpr h

/-- and keeps the runners that are due. -/
theorem fireLazyRunner_contents :
    Q.contents (fireLazyRunner jobs Q holder now).timeLazyRunnerHolder =
      (Q.contents holder).filter fun r => ¬ now < r.minFireTime := by
  rw [fireLazyRunner, fireLoop_eq.2,
    PriorityQueue.popWhile_snd
      (fun r r' hle h => DBJobTimeLazyRunner.checkFireState_of_key_le hle h)
      le_rfl]
  simp only [DBJobTimeLazyRunner.checkFireState, decide_eq_true_eq]

/-- Each runner is fired or kept. -/
theorem fireLazyRunner_add :
    ↑(fireLazyRunner jobs Q holder now).fired +
      Q.contents (fireLazyRunner jobs Q holder now).timeLazyRunnerHolder = Q.contents holder := by
  rw [fireLazyRunner, fireLoop_eq.1, fireLoop_eq.2]
  exact PriorityQueue.popWhile_add _ _ _

/-- **A call fires what is due exactly where the holder is empty**: a runner in it is due and kept,
or is not due and fired. -/
theorem firesDue_iff (e : LazyEvent Job) : firesDue jobs Q holder e ↔ findsNone Q holder e := by
  cases e with
  | push inOwner inBeginTime inDelayMillisecond => exact Iff.rfl
  | fire now =>
    constructor
    · intro h
      by_contra hne
      obtain ⟨r, hr⟩ := Multiset.exists_mem_of_ne_zero hne
      have hfired : r ∈ (fireLazyRunner jobs Q holder now).fired ↔
          r ∈ Q.contents holder ∧ now < r.minFireTime := by
        rw [← Multiset.mem_coe, fireLazyRunner_fired, Multiset.mem_filter]
      by_cases hdue : r.minFireTime ≤ now
      · have hlt := (hfired.mp ((h.due r).mpr ⟨hr, hdue⟩)).2
        rw [UInt64.lt_iff_toNat_lt] at hlt
        rw [UInt64.le_iff_toNat_le] at hdue
        omega
      · have hlt : now < r.minFireTime := UInt64.not_le.mp hdue
        exact hdue ((h.due r).mp (hfired.mpr ⟨hr, hlt⟩)).2
    · intro h
      have hzero : Q.contents holder = 0 := h
      have hfired :
          ((fireLazyRunner jobs Q holder now).fired : Multiset (DBJobTimeLazyRunner Job)) = 0 := by
        rw [fireLazyRunner_fired, hzero, Multiset.filter_zero]
      have hkept : Q.contents (fireLazyRunner jobs Q holder now).timeLazyRunnerHolder = 0 := by
        rw [fireLazyRunner_contents, hzero, Multiset.filter_zero]
      have hnil : (fireLazyRunner jobs Q holder now).fired = [] := by simpa using hfired
      refine ⟨fun r => ?_, ?_, ?_, fireLazyRunner_add⟩
      · simp [hnil, hzero]
      · rw [hnil]
        exact .nil
      · rw [hkept, hzero, Multiset.filter_zero]

/-! ## Whole runs -/

/-- **What was pushed was fired or is still there**, at the end of every run. -/
theorem firedIn_add {holder' : Q.Queue} (hr : (lazyRunners jobs Q).run holder es = some holder') :
    ↑(firedIn jobs Q holder es) + Q.contents holder' =
      Q.contents holder + ↑(es.flatMap LazyEvent.pushed) := by
  induction es generalizing holder with
  | nil =>
    obtain rfl : holder = holder' := Option.some.inj hr
    rw [firedIn, List.flatMap_nil, Multiset.coe_nil, zero_add, add_zero]
  | cons e es ih =>
    obtain ⟨next, hnext, hrest⟩ := System.run_cons_eq_some.mp hr
    have hih := ih hrest
    cases e with
    | push inOwner inBeginTime inDelayMillisecond =>
      obtain rfl := Option.some.inj hnext
      rw [Q.contents_push] at hih
      rw [firedIn, hih, List.flatMap_cons, LazyEvent.pushed, ← Multiset.coe_add,
        ← Multiset.singleton_add, Multiset.coe_singleton, add_comm {_}, add_assoc]
    | fire now =>
      obtain rfl := Option.some.inj hnext
      rw [firedIn, List.flatMap_cons, LazyEvent.pushed, List.nil_append, ← Multiset.coe_add,
        add_assoc, hih, ← add_assoc, fireLazyRunner_add]

theorem exists_run_lazyRunners (es : List (LazyEvent Job)) (holder : Q.Queue) :
    ∃ holder', (lazyRunners jobs Q).run holder es = some holder' := by
  induction es generalizing holder with
  | nil => exact ⟨holder, rfl⟩
  | cons e es ih =>
    have hstep : ∃ next, (lazyRunners jobs Q).step holder e = some next := by
      cases e with
      | push inOwner inBeginTime inDelayMillisecond => exact ⟨_, rfl⟩
      | fire now => exact ⟨_, rfl⟩
    obtain ⟨next, hnext⟩ := hstep
    obtain ⟨holder', hrest⟩ := ih next
    exact ⟨holder', System.run_cons_eq_some.mpr ⟨next, hnext, hrest⟩⟩

/-- **No runner is fired more often than it was pushed.** -/
theorem firedIn_count_le [DecidableEq Job] (r : DBJobTimeLazyRunner Job) :
    (firedIn jobs Q Q.empty es).count r ≤ (es.flatMap LazyEvent.pushed).count r := by
  obtain ⟨holder', hr⟩ : ∃ holder', (lazyRunners jobs Q).run Q.empty es = some holder' :=
    exists_run_lazyRunners es Q.empty
  have hadd := congrArg (Multiset.count r) (firedIn_add hr)
  rw [Q.contents_empty, zero_add, Multiset.count_add, Multiset.coe_count,
    Multiset.coe_count] at hadd
  omega

/-- **Lazy jobs fire when due exactly in the runs in which every call finds the holder empty.** -/
theorem firesWhenDue_iff [DecidableEq Job] :
    FiresWhenDue jobs Q es ↔ (lazyRunners jobs Q).Meets (findsNone Q) Q.empty es := by
  constructor
  · rintro ⟨hmeets, -⟩
    exact hmeets.mono fun _ e => (firesDue_iff e).mp
  · intro hmeets
    exact ⟨hmeets.mono fun _ e => (firesDue_iff e).mpr, firedIn_count_le⟩

/-- Batches that are executed, with no name. -/
def succeedingJobs : BatchedDBJobs ℕ := ⟨fun _ => errorCodeSuccess, fun _ => []⟩

/-- **A runner that is due is not fired**: it is pushed at 5 with a delay of 10, and the call at 20
leaves it in the queue. -/
theorem not_firesWhenDue : ¬ FiresWhenDue succeedingJobs (PriorityQueue.scan key)
    [.push 1 5 10, .fire 20] := by
  rintro ⟨⟨-, hmeets⟩, -⟩
  have hzero := (firesDue_iff (.fire 20)).mp (hmeets _ rfl).1
  have hone : Multiset.card ({.new 1 5 10} : Multiset (DBJobTimeLazyRunner ℕ)) = 0 :=
    congrArg Multiset.card hzero
  cases hone

end GameServer

end DdingGameServer
