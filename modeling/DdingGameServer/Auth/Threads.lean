import DdingGameServer.Common.KeyMap
import DdingGameServer.DBServer.Pool
/-!
# DB threads — connections that are not given back

The workers of `AuthDBThreadManager` take jobs from a list and a connection for each from the pool,
and end the job without `FreeConnection`, which nothing calls. A connection is in the list, with a
worker or used up (`length_add_of_reachable`), so a pool of `p` serves `p` jobs and the next call of
`CallSP` crashes. As long as no job is ended there is a connection for every worker, and at the end
of the first one its connection is not in the list (`givesBack_iff`).

`DBConnectionPool` is the class of DBServer in another file. A connection is taken as the reference
to the front of the list has it, although the element is gone by then.
-/

namespace DdingGameServer

namespace Auth

open DBServer

universe w

inductive ClientType
  | NET_CLIENT
  | LAN_CLIENT
  deriving DecidableEq, Repr

structure QueryObject where
  query : String
  queryType : UInt16
  needResult : Bool
  deriving DecidableEq, Repr

structure DBJobObject where
  clientType : ClientType
  sessionId : UInt64
  queryObject : QueryObject
  deriving DecidableEq, Repr

/-! ## The end of a job -/

/-- `DBJobHandler`, by what it prints. -/
abbrev DBJobHandler := DBJobObject → List String

/-- `dbJobHandlerMap`, into which nothing is put. -/
def dbJobHandlerMap : KeyMap UInt16 DBJobHandler := .empty

/-- `NeedDBResultHandler`, by what it prints. -/
def needDBResultHandler (jobObject : DBJobObject) : List String :=
  match dbJobHandlerMap.find jobObject.queryObject.queryType with
  | none => ["Invalid query type. Check query type"]
  | some dbJobHandler => dbJobHandler jobObject

/-- `DBJobResultHandler`, by what it prints. `NotNeedDBResultHandler` is empty. -/
def dbJobResultHandler (jobObject : DBJobObject) : List String :=
  if jobObject.queryObject.needResult then needDBResultHandler jobObject else []

/-! ## The threads -/

variable {Handle : Type w}

/-- Where a worker thread is. -/
inductive Worker (Handle : Type w)
  /-- In `WaitForMultipleObjects`. -/
  | waiting
  /-- In `DBJobHandle`, before `GetDBJobObject`. -/
  | handling
  /-- In `CallSP`, before `GetConnection`, -/
  | calling (dbJob : DBJobObject)
  /-- and behind it. -/
  | working (dbJob : DBJobObject) (conn : DBConnection Handle)
  | stopped
  deriving DecidableEq

/-- The connection a worker has. -/
def Worker.conn : Worker Handle → Option (DBConnection Handle)
  | .working _ conn => some conn
  | _ => none

/-- A job that was ended, the connection it used and what its end printed. -/
structure Ended (Handle : Type w) where
  dbJob : DBJobObject
  conn : DBConnection Handle
  output : List String
  deriving DecidableEq

/-- `AuthDBThreadManager` and the `connectionList` of the pool. -/
structure DBThreads (Handle : Type w) where
  connectionList : List (DBConnection Handle)
  dbJobList : List DBJobObject
  /-- `dbJobEventHandles`. -/
  dbJobEvent : Bool
  stopEvent : Bool
  workerThreads : List (Worker Handle)
  crashed : Bool
  /-- The jobs that were ended so far, in order. -/
  ended : List (Ended Handle)
  deriving DecidableEq

inductive DBThreadEvent
  | insertDBJob (dbJob : DBJobObject)
  /-- `SetEvent` of `DB_JOB_EVENT_HANDLE`, which is for the one who inserts. -/
  | setDBJobEvent
  /-- `StopThreads`, up to its `join`. -/
  | stopThreads
  /-- The `i`-th worker takes its next step. -/
  | advance (i : ℕ)
  deriving DecidableEq, Repr

namespace DBThreads

/-- `StartThreads` with `numOfThreads` on a pool. -/
def start (connectionList : List (DBConnection Handle)) (numOfThreads : ℕ) : DBThreads Handle where
  connectionList := connectionList
  dbJobList := []
  dbJobEvent := false
  stopEvent := false
  workerThreads := List.replicate numOfThreads .waiting
  crashed := false
  ended := []

/-- The next step of a worker: what it does to the rest, and where it is then. -/
def advance (s : DBThreads Handle) : Worker Handle → Option (DBThreads Handle × Worker Handle)
  | .waiting =>
    if s.dbJobEvent then some ({ s with dbJobEvent := false }, .handling)
    -- the event that is reset is set again, for the other workers
    else if s.stopEvent then some ({ s with stopEvent := true }, .stopped)
    else none
  | .handling =>
    match s.dbJobList with
    | [] => some (s, .waiting)
    | job :: dbJobList => some ({ s with dbJobList := dbJobList }, .calling job)
  | .calling dbJob =>
    match s.connectionList with
    | [] => some ({ s with crashed := true }, .calling dbJob)
    | conn :: connectionList =>
      some ({ s with connectionList := connectionList }, .working dbJob conn)
  -- `SendQuery` and `DBJobResultHandler`, neither of which gives the connection back
  | .working dbJob conn =>
    some ({ s with ended := s.ended ++ [⟨dbJob, conn, dbJobResultHandler dbJob⟩] }, .handling)
  | .stopped => none

end DBThreads

/-- **The DB threads**, in any interleaving. -/
def dbThreads : System (DBThreads Handle) DBThreadEvent where
  Init s := ∃ connectionList numOfThreads, s = .start connectionList numOfThreads
  step s e :=
    if s.crashed then none else
      match e with
      | .insertDBJob dbJob => some { s with dbJobList := s.dbJobList ++ [dbJob] }
      | .setDBJobEvent => some { s with dbJobEvent := true }
      | .stopThreads => some { s with stopEvent := true }
      | .advance i => s.workerThreads[i]?.bind fun w =>
          (s.advance w).map fun r => { r.1 with workerThreads := s.workerThreads.set i r.2 }

/-- **A step gives back**: `CallSP` has its connection, and of each job that is ended the connection
is in the list, once. -/
def GivesBack [DecidableEq Handle] (s : DBThreads Handle) (e : DBThreadEvent) : Prop :=
  ∀ s', dbThreads.step s e = some s' → s'.crashed = false ∧
    ∀ job ∈ s'.ended.drop s.ended.length, s'.connectionList.count job.conn = 1

/-- The step is the end of a job. -/
def ends (s : DBThreads Handle) : DBThreadEvent → Bool
  | .advance i => !s.crashed &&
      match s.workerThreads[i]? with
      | some (.working _ _) => true
      | _ => false
  | _ => false

variable {s s' : DBThreads Handle} {e : DBThreadEvent} {es : List DBThreadEvent}
  {created connectionList : List (DBConnection Handle)} {n p : ℕ}

/-! ## What a step does to the pool -/

/-- **What a step does to the pool**: nothing, and it crashes at most where a worker finds it empty;
or a worker takes the front connection; or it ends a job. -/
inductive Stepped (s s' : DBThreads Handle) : Bool → Prop
  | kept : s'.connectionList = s.connectionList → s'.ended = s.ended →
      s'.workerThreads.length = s.workerThreads.length →
      s'.workerThreads.filterMap Worker.conn = s.workerThreads.filterMap Worker.conn →
      (s'.crashed = true → s.connectionList = [] ∧ ∃ w ∈ s.workerThreads, w.conn = none) →
      Stepped s s' false
  | took (i : ℕ) (w w' : Worker Handle) (conn : DBConnection Handle) :
      s.workerThreads[i]? = some w → w.conn = none → w'.conn = some conn →
      s.connectionList = conn :: s'.connectionList → s'.ended = s.ended → s'.crashed = false →
      s'.workerThreads = s.workerThreads.set i w' → Stepped s s' false
  | ended (i : ℕ) (w w' : Worker Handle) (job : Ended Handle) :
      s.workerThreads[i]? = some w → w.conn = some job.conn → w'.conn = none →
      s'.connectionList = s.connectionList → s'.ended = s.ended ++ [job] → s'.crashed = false →
      s'.workerThreads = s.workerThreads.set i w' → Stepped s s' true

/-- A worker that holds as much as before. -/
theorem filterMap_set_of_conn {l : List (Worker Handle)} {i : ℕ} {w w' : Worker Handle}
    (hi : l[i]? = some w) (hconn : w'.conn = w.conn) :
    (l.set i w').filterMap Worker.conn = l.filterMap Worker.conn := by
  induction l generalizing i with
  | nil => rfl
  | cons a l ih =>
    cases i with
    | zero =>
      obtain rfl := Option.some.inj hi
      simp only [List.set_cons_zero, List.filterMap_cons, hconn]
    | succ i => simp only [List.set_cons_succ, List.filterMap_cons, ih hi]

/-- A worker that moves, and nothing of the pool. -/
theorem Stepped.moved {t : DBThreads Handle} {i : ℕ} {w w' : Worker Handle}
    (hi : s.workerThreads[i]? = some w) (hpool : t.connectionList = s.connectionList)
    (hended : t.ended = s.ended) (hconn : w'.conn = w.conn)
    (hcrashed : t.crashed = true → s.connectionList = [] ∧ w.conn = none) :
    Stepped s { t with workerThreads := s.workerThreads.set i w' } false :=
  .kept hpool hended List.length_set (filterMap_set_of_conn hi hconn) fun hc =>
    ⟨(hcrashed hc).1, w, List.mem_of_getElem? hi, (hcrashed hc).2⟩

/-- **Every step is one of these.** -/
theorem stepped (hs : dbThreads.step s e = some s') : Stepped s s' (ends s e) := by
  cases hcrashed : s.crashed with
  | true => simp [dbThreads, hcrashed] at hs
  | false =>
    have hnot : s.crashed ≠ true := by rw [hcrashed]; decide
    simp only [dbThreads, if_neg hnot] at hs
    cases e with
    | insertDBJob _ | setDBJobEvent | stopThreads =>
      cases hs
      exact .kept rfl rfl rfl rfl fun hc => absurd hc hnot
    | advance i =>
      obtain ⟨w, hi, hrest⟩ := Option.bind_eq_some_iff.mp hs
      obtain ⟨⟨t, w'⟩, hadv, rfl⟩ := Option.map_eq_some_iff.mp hrest
      simp only [ends, hi, hcrashed, Bool.not_false, Bool.true_and]
      cases w with
      | waiting =>
        simp only [DBThreads.advance] at hadv
        split at hadv
        · cases hadv
          exact .moved hi rfl rfl rfl fun hc => absurd hc hnot
        · split at hadv
          · cases hadv
            exact .moved hi rfl rfl rfl fun hc => absurd hc hnot
          · cases hadv
      | handling =>
        cases hjobs : s.dbJobList with
        | nil =>
          simp only [DBThreads.advance, hjobs] at hadv
          cases hadv
          exact .moved hi rfl rfl rfl fun hc => absurd hc hnot
        | cons job dbJobList =>
          simp only [DBThreads.advance, hjobs] at hadv
          cases hadv
          exact .moved hi rfl rfl rfl fun hc => absurd hc hnot
      | calling dbJob =>
        cases hpool : s.connectionList with
        | nil =>
          simp only [DBThreads.advance, hpool] at hadv
          cases hadv
          exact .moved hi hpool.symm rfl rfl fun _ => ⟨hpool, rfl⟩
        | cons conn connectionList =>
          simp only [DBThreads.advance, hpool] at hadv
          cases hadv
          exact .took i (.calling dbJob) _ conn hi rfl rfl hpool rfl hcrashed rfl
      | working dbJob conn =>
        cases hadv
        exact .ended i (.working dbJob conn) _ ⟨dbJob, conn, _⟩ hi rfl rfl rfl rfl hcrashed rfl
      | stopped => cases hadv

/-- And by whether it ends a job. -/
theorem stepped_of {b : Bool} (hs : dbThreads.step s e = some s') (hends : ends s e = b) :
    Stepped s s' b :=
  hends ▸ stepped hs

/-- The end of a job is always possible. -/
theorem exists_step_of_ends (h : ends s e = true) : ∃ s', dbThreads.step s e = some s' := by
  cases e with
  | advance i =>
    obtain ⟨hcrashed, hworker⟩ := Bool.and_eq_true_iff.mp h
    cases hi : s.workerThreads[i]? with
    | none =>
      rw [hi] at hworker
      cases hworker
    | some w =>
      rw [hi] at hworker
      cases w with
      | working dbJob conn =>
        simp only [dbThreads, hi, DBThreads.advance]
        rw [if_neg (by simpa using hcrashed)]
        exact ⟨_, rfl⟩
      | waiting | handling | calling _ | stopped => cases hworker
  | insertDBJob _ | setDBJobEvent | stopThreads => cases h

/-- Only the end of a job adds to the jobs that were ended. -/
theorem ended_of_not_ends (hs : dbThreads.step s e = some s') (hends : ends s e = false) :
    s'.ended = s.ended := by
  cases stepped_of hs hends with
  | kept hpool hended hlength hheld hcrashed => exact hended
  | took i w w' conn hi hw hw' hpool hended hcrashed hthreads => exact hended

/-! ## Where the connections are -/

variable [DecidableEq Handle]

/-- **A connection is in the list, with a worker, or used up.** -/
structure Pooled (created : List (DBConnection Handle)) (n : ℕ) (s : DBThreads Handle) : Prop where
  threads : s.workerThreads.length = n
  lends : Lends created (s.connectionList ++ s.ended.map Ended.conn) Worker.conn s.workerThreads

theorem Pooled.start : Pooled created n (.start created n) := by
  refine ⟨List.length_replicate, ?_⟩
  show Lends created (created ++ []) _ _
  rw [List.append_nil]
  refine .start fun w hw => ?_
  rw [List.eq_of_mem_replicate hw]
  rfl

/-- **Every step keeps account of the connections.** -/
theorem Pooled.step (h : Pooled created n s) (hs : dbThreads.step s e = some s') :
    Pooled created n s' := by
  have hlends := h.lends
  cases hstep : ends s e with
  | false =>
    cases stepped_of hs hstep with
    | kept hpool hended hlength hheld _ =>
      refine ⟨hlength.trans h.threads, ?_⟩
      rw [hpool, hended]
      exact hlends.congr hheld
    | took i w w' conn hi hw hw' hpool hended _ hthreads =>
      rw [hpool] at hlends
      refine ⟨by rw [hthreads, List.length_set, h.threads], ?_⟩
      rw [hthreads, hended]
      exact hlends.lend hi (.refl _) hw hw'
  | true =>
    cases stepped_of hs hstep with
    | ended i w w' job hi hw hw' hpool hended _ hthreads =>
      refine ⟨by rw [hthreads, List.length_set, h.threads], ?_⟩
      rw [hthreads, hpool, hended, List.map_append]
      refine hlends.giveBack hi hw ?_ hw'
      rw [← List.append_assoc]
      exact List.perm_append_singleton job.conn _

/-- The connections in the list, with workers and used up are those that were created. -/
theorem Pooled.length_add (h : Pooled created n s) :
    s.connectionList.length + (s.workerThreads.filterMap Worker.conn).length + s.ended.length =
      created.length := by
  have hlength := h.lends.length_add
  rw [List.length_append, List.length_map] at hlength
  omega

/-- **So in every run**, -/
theorem length_add_of_run {numOfThreads : ℕ}
    (hr : dbThreads.run (.start created numOfThreads) es = some s) :
    s.connectionList.length + (s.workerThreads.filterMap Worker.conn).length + s.ended.length =
      created.length := by
  have hpooled : Pooled created numOfThreads s :=
    System.meets_true.invariant (P := Pooled created numOfThreads)
      (fun _ _ _ hp _ hs => hp.step hs) hr .start
  exact hpooled.length_add

/-- **and a pool of `p` serves `p` jobs.** -/
theorem ended_length_le {numOfThreads : ℕ}
    (hr : dbThreads.run (.start created numOfThreads) es = some s) :
    s.ended.length ≤ created.length := by
  have hadd := length_add_of_run hr
  omega

/-! ## Giving back -/

/-- **The end of a job does not give back**: its connection was with the worker, and is nowhere
then. -/
theorem Pooled.not_givesBack (h : Pooled created n s) (hnodup : created.Nodup)
    (hs : dbThreads.step s e = some s') (hends : ends s e = true) : ¬ GivesBack s e := by
  intro hgives
  cases stepped_of hs hends with
  | ended i w w' job hi hw hw' hpool hended _ hthreads =>
    have hnew : job ∈ s'.ended.drop s.ended.length := by
      rw [hended, List.drop_left]
      exact List.mem_singleton_self job
    have hcount := (hgives s' hs).2 job hnew
    have hnotMem := h.lends.notMem_of_held hnodup hi hw
    rw [hpool, List.count_eq_zero_of_not_mem fun hmem => hnotMem (List.mem_append_left _ hmem)]
      at hcount
    cases hcount

/-- **As long as no job is ended there is a connection for every worker.** -/
theorem Pooled.givesBack (h : Pooled created n s) (hn : n ≤ created.length) (hnone : s.ended = [])
    (hends : ends s e = false) : GivesBack s e := by
  intro s' hs
  cases stepped_of hs hends with
  | kept hpool hended hlength hheld hcrashed =>
    refine ⟨?_, by simp [hended]⟩
    cases hc : s'.crashed with
    | false => rfl
    | true =>
      obtain ⟨hnil, w, hw, hconn⟩ := hcrashed hc
      have hadd := h.length_add
      have hlt : (s.workerThreads.filterMap Worker.conn).length < s.workerThreads.length :=
        List.length_filterMap_lt_length_iff_exists.mpr ⟨w, hw, hconn⟩
      rw [hnil, hnone, List.length_nil, List.length_nil] at hadd
      rw [h.threads] at hlt
      omega
  | took i w w' conn hi hw hw' hpool hended hcrashed hthreads =>
    exact ⟨hcrashed, by simp [hended]⟩

/-- **Connections are given back exactly in the runs that end no job**, from every pool that
`Initialize` makes, with as many workers at most. -/
theorem givesBack_iff {driver : Driver Handle} (hp : 1 ≤ p)
    (hinit : poolInitialize driver p = (true, connectionList)) (hn : n ≤ p) :
    dbThreads.Meets GivesBack (.start connectionList n) es ↔
      dbThreads.Meets (fun s e => ends s e = false) (.start connectionList n) es := by
  obtain ⟨hnodup, rfl⟩ := nodup_poolInitialize hp hinit
  constructor
  · intro h
    refine h.of_invariant (P := Pooled connectionList n) (fun _ _ _ hs _ hstep => hs.step hstep)
      (fun s e hs hgives => Bool.eq_false_iff.mpr fun hends => ?_) .start
    obtain ⟨s', hstep⟩ := exists_step_of_ends hends
    exact hs.not_givesBack hnodup hstep hends hgives
  · intro h
    refine h.of_invariant (P := fun s => Pooled connectionList n s ∧ s.ended = [])
      (fun s e s' hs hends hstep => ⟨hs.1.step hstep, ?_⟩)
      (fun s e hs hends => hs.1.givesBack hn hs.2 hends) ⟨.start, rfl⟩
    rw [ended_of_not_ends hstep hends, hs.2]

/-- A job in need of no result. -/
def sampleJob (query : String) : DBJobObject := ⟨.LAN_CLIENT, 1, ⟨query, 1, false⟩⟩

/-- Two workers are at work on two jobs, with a connection each. -/
theorem givesBack_two : ∃ s, dbThreads.run (.start [⟨0, 1⟩, ⟨2, 3⟩] 2)
      [.insertDBJob (sampleJob "a"), .insertDBJob (sampleJob "b"), .setDBJobEvent, .advance 0,
        .setDBJobEvent, .advance 1, .advance 0, .advance 1, .advance 1, .advance 0] = some s ∧
    s.connectionList = [] ∧ dbThreads.Meets GivesBack (.start [⟨0, 1⟩, ⟨2, 3⟩] 2)
      [.insertDBJob (sampleJob "a"), .insertDBJob (sampleJob "b"), .setDBJobEvent, .advance 0,
        .setDBJobEvent, .advance 1, .advance 0, .advance 1, .advance 1, .advance 0] := by
  obtain ⟨s, hmeets, hr, hnil⟩ := System.exists_run dbThreads
    [.insertDBJob (sampleJob "a"), .insertDBJob (sampleJob "b"), .setDBJobEvent, .advance 0,
      .setDBJobEvent, .advance 1, .advance 0, .advance 1, .advance 1, .advance 0]
    (c := fun (s : DBThreads ℕ) e => ends s e = false) (f := fun s => s.connectionList = [])
    (s := .start [⟨0, 1⟩, ⟨2, 3⟩] 2) (by decide +kernel)
  have hinit : poolInitialize countingDriver (2 : ℕ) = (true, [⟨0, 1⟩, ⟨2, 3⟩]) := by decide
  exact ⟨s, hr, of_decide_eq_true hnil,
    (givesBack_iff (by decide) hinit le_rfl).mpr (hmeets.mono fun _ _ => of_decide_eq_true)⟩

/-- **One connection, one worker and two jobs**: the first job keeps the connection, and the second
crashes the server. -/
theorem not_givesBack_one : poolInitialize countingDriver (1 : ℕ) = (true, [⟨0, 1⟩]) ∧
    ∃ s, dbThreads.run (.start [⟨0, 1⟩] 1)
        [.insertDBJob (sampleJob "a"), .insertDBJob (sampleJob "b"), .setDBJobEvent, .advance 0,
          .advance 0, .advance 0, .advance 0, .advance 0, .advance 0] = some s ∧
      s.crashed = true ∧ ¬ dbThreads.Meets GivesBack (.start [⟨0, 1⟩] 1)
        [.insertDBJob (sampleJob "a"), .insertDBJob (sampleJob "b"), .setDBJobEvent, .advance 0,
          .advance 0, .advance 0, .advance 0, .advance 0, .advance 0] := by
  refine ⟨by decide, _, rfl, rfl, fun h => ?_⟩
  have hsplit : dbThreads.Meets GivesBack (.start [⟨0, 1⟩] 1)
      ([.insertDBJob (sampleJob "a"), .insertDBJob (sampleJob "b"), .setDBJobEvent, .advance 0,
        .advance 0, .advance 0, .advance 0, .advance 0] ++ [.advance 0]) := h
  have hcrashed := ((hsplit.of_append rfl).1 _ rfl).1
  cases hcrashed

end Auth

end DdingGameServer
