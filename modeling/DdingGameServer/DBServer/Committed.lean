import DdingGameServer.Common.Database
import DdingGameServer.DBServer.Pool
import DdingGameServer.ODBC.Model
/-!
# DBServer — what any number of batches commit

`DoBatchedJob` runs on a connection of the pool, in a transaction of that connection, while other
executions run on theirs. Here it is cut at every call, and ODBC answers each call as it likes: a
failure of `SQLSetConnectAttr` or `SQLEndTran` crashes the server, the one that should switch
autocommit on again is not looked at. What a job does to the database is any work. What
`GetConnection` returns is taken to be the connection that was at the front of the list, as in
`DBServer.Pool`.

However the executions interleave and wherever the server crashes, the database holds the work of
whole batches, one transaction for each (`atomic_of_reachable`): a connection that is handed out has
nothing open, whatever mode it is in, and nobody else has it.
-/

namespace DdingGameServer

namespace DBServer

namespace Committed

open GameDB ODBC

universe u v w

/-- A call that takes a connection from the pool. -/
inductive PoolCall (Buf : Type u)
  | doBatchedJob (requestSessionId : UInt64) (jobKey : DBJobKey) (batchedJob : BatchedDBJob Buf)
  /-- The switch over the procedures is empty. -/
  | procedureHandleImpl (requestSessionId : UInt64) (packetId : PacketId) (recvBuffer : Buf)
  deriving DecidableEq

/-- The jobs of a call. -/
def PoolCall.items {Buf : Type u} : PoolCall Buf → List (Item Buf)
  | .doBatchedJob _ _ batchedJob => batchedJob.bufferList
  | .procedureHandleImpl _ _ _ => []

/-- The next call of an execution, in the order of the source. -/
inductive Place (Buf : Type u)
  | getConnection
  | autocommitOff
  /-- The loop over `bufferList`, and behind it `SQLEndTran`. -/
  | jobs (rest : List (Item Buf))
  | sendPacket
  | autocommitOn
  | freeConnection
  | returned
  deriving DecidableEq

/-- An execution of `DoBatchedJob` or `ProcedureHandleImpl`. -/
structure Execution (Buf : Type u) (Handle : Type v) (Work : Type w) where
  call : PoolCall Buf
  place : Place Buf
  conn : Option (DBConnection Handle)
  isSuccess : Bool
  /-- History: the jobs that were run, what they did, and whether that was committed. -/
  ran : List (Item Buf)
  work : List Work
  committed : Bool
  deriving DecidableEq

variable {Buf : Type u} {Handle : Type v} {Work : Type w}

/-- An execution at its start. -/
def Execution.start (call : PoolCall Buf) : Execution Buf Handle Work where
  call := call
  place := .getConnection
  conn := none
  isSuccess := true
  ran := []
  work := []
  committed := false

/-- What the outside answers to a call. -/
structure Answer (Work : Type w) where
  /-- Of ODBC. -/
  sqlReturn : SqlReturn := .success
  /-- What `DBJobHandleImpl` did. -/
  work : List Work := []
  /-- Whether a commit that is answered by an error was one all the same. -/
  committed : Bool := false

/-- The pool, its executions and the database. -/
structure State (Buf : Type u) (Handle : Type v) (Work : Type w) where
  connectionList : List (DBConnection Handle)
  executions : List (Execution Buf Handle Work)
  db : Database Handle Work
  /-- The replies that were sent, in order. -/
  replies : List (UInt64 × ResultPacket)
  crashed : Bool

inductive CommitEvent (Buf : Type u) (Work : Type w)
  | call (call : PoolCall Buf)
  /-- The `i`-th execution makes its next call. -/
  | advance (i : ℕ) (answer : Answer Work)

namespace State

variable [DecidableEq Handle] (s : State Buf Handle Work)

/-- `Crash`. -/
def crash : State Buf Handle Work := { s with crashed := true }

/-- The `i`-th execution replaced. -/
def setExecution (i : ℕ) (e : Execution Buf Handle Work) : State Buf Handle Work :=
  { s with executions := s.executions.set i e }

/-- `SQLEndTran` over the connection of the `i`-th execution. -/
def sqlEndTran (i : ℕ) (e : Execution Buf Handle Work) (conn : DBConnection Handle)
    (answer : Answer Work) : State Buf Handle Work :=
  let ended := if e.isSuccess = true then s.db.commit conn.dbcHandle
    else s.db.rollback conn.dbcHandle
  if sqlIsSuccess answer.sqlReturn = true then
    { s.setExecution i { e with place := .sendPacket, committed := e.isSuccess } with db := ended }
  else if answer.committed = true then
    { s.setExecution i { e with committed := e.isSuccess } with db := ended, crashed := true }
  else s.crash

/-- The next call of the `i`-th execution. -/
def advance (i : ℕ) (e : Execution Buf Handle Work) (answer : Answer Work) :
    Option (State Buf Handle Work) :=
  match e.place, e.conn with
  | .getConnection, _ =>
    match s.connectionList with
    | [] => some s.crash
    | conn :: connectionList =>
      let place := match e.call with
        | .doBatchedJob _ _ _ => .autocommitOff
        | .procedureHandleImpl _ _ _ => .freeConnection
      some { s.setExecution i { e with place, conn := some conn } with connectionList }
  | .autocommitOff, some conn =>
    if sqlIsSuccess answer.sqlReturn = true then
      some { s.setExecution i { e with place := .jobs e.call.items } with
        db := s.db.autocommitOff conn.dbcHandle }
    else some s.crash
  | .jobs (item :: rest), some conn =>
    -- what the job returns is a local of the loop, which looks at `isSuccess`
    some { s.setExecution i
        { e with
          place := .jobs (if e.isSuccess = false then [] else rest)
          ran := e.ran ++ [item]
          work := e.work ++ answer.work } with
      db := s.db.execute conn.dbcHandle answer.work }
  | .jobs [], some conn => some (s.sqlEndTran i e conn answer)
  | .sendPacket, some _ =>
    match e.call with
    | .doBatchedJob requestSessionId jobKey _ =>
      some { s.setExecution i { e with place := .autocommitOn } with
        replies := s.replies ++ [(requestSessionId, ⟨jobKey, e.isSuccess⟩)] }
    | .procedureHandleImpl _ _ _ => none
  | .autocommitOn, some conn =>
    -- the answer is not looked at
    some { s.setExecution i { e with place := .freeConnection } with
      db := if sqlIsSuccess answer.sqlReturn = true then s.db.autocommitOn conn.dbcHandle
        else s.db }
  | .freeConnection, some conn =>
    some { s.setExecution i { e with place := .returned, conn := none } with
      connectionList := s.connectionList ++ [conn] }
  | _, _ => none

/-- One step. A server that has crashed takes none. -/
def step : CommitEvent Buf Work → Option (State Buf Handle Work)
  | .call call =>
    if s.crashed then none else some { s with executions := s.executions ++ [.start call] }
  | .advance i answer =>
    if s.crashed then none else s.executions[i]?.bind fun e => s.advance i e answer

end State

/-- **DBServer's connections**, from an `Initialize` that succeeded, over a database in which
nothing was committed yet. -/
def batches [DecidableEq Handle] (driver : Driver Handle) (inPoolSize : ℤ) :
    System (State Buf Handle Work) (CommitEvent Buf Work) where
  Init s := poolInitialize driver inPoolSize = (true, s.connectionList) ∧ s.executions = [] ∧
    s.db = ⟨fun _ => .autocommit, []⟩ ∧ s.replies = [] ∧ s.crashed = false
  step s := s.step

/-! ## What is expected -/

/-- The work of the `i`-th execution. -/
def workOf (executions : List (Execution Buf Handle Work)) (i : ℕ) : List Work :=
  (executions[i]?.map Execution.work).getD []

/-- **The log is the work of the executions that committed**, one transaction each, in the order of
their commits. -/
def Logged (executions : List (Execution Buf Handle Work)) (committed : List (List Work)) : Prop :=
  ∃ order : List ℕ, order.Nodup ∧ committed = order.map (workOf executions) ∧
    ∀ i, i ∈ order ↔ ∃ e, executions[i]? = some e ∧ e.committed = true

/-- An execution commits whole batches only: the work of all its jobs, and that of every batch it
returns from. -/
structure Execution.Settled (e : Execution Buf Handle Work) : Prop where
  whole : e.committed = true → e.ran = e.call.items
  returned : e.place = .returned → ∀ requestSessionId jobKey batchedJob,
    e.call = .doBatchedJob requestSessionId jobKey batchedJob → e.committed = true

/-- A reply says yes to the batch of an execution that has committed it. -/
def Execution.Replied (e : Execution Buf Handle Work) (r : UInt64 × ResultPacket) : Prop :=
  e.committed = true ∧ r.2.isSuccess = true ∧
    ∃ batchedJob, e.call = .doBatchedJob r.1 r.2.jobKey batchedJob

/-- **Batches are atomic.** -/
structure Atomic (s : State Buf Handle Work) : Prop where
  logged : Logged s.executions s.db.committed
  settled : ∀ e ∈ s.executions, e.Settled
  replied : ∀ r ∈ s.replies, ∃ e ∈ s.executions, e.Replied r
  /-- The next execution finds nothing open over its connection. -/
  idle : s.crashed = false → ∀ conn ∈ s.connectionList, s.db.uncommitted conn.dbcHandle = []

variable {s s' : State Buf Handle Work} {e e' : Execution Buf Handle Work}
  {executions : List (Execution Buf Handle Work)} {committed : List (List Work)}
  {db db' : Database Handle Work} {conn : DBConnection Handle} {i : ℕ}

/-! ## The log of a list of executions -/

theorem workOf_of_getElem? (h : executions[i]? = some e) : workOf executions i = e.work := by
  simp [workOf, h]

/-- The work of the others, where one execution is replaced. -/
theorem workOf_set_of_ne {j : ℕ} (h : j ≠ i) :
    workOf (executions.set i e) j = workOf executions j := by
  simp [workOf, Ne.symm h]

/-- A new execution has committed nothing. -/
theorem Logged.join (h : Logged executions committed) (he : e.committed = false) :
    Logged (executions ++ [e]) committed := by
  obtain ⟨order, hnodup, hlog, hmem⟩ := h
  have hold : ∀ j ∈ order, (executions ++ [e])[j]? = executions[j]? := by
    intro j hj
    obtain ⟨a, ha, -⟩ := (hmem j).mp hj
    exact List.getElem?_append_left (List.getElem?_eq_some_iff.mp ha).1
  refine ⟨order, hnodup, ?_, fun j => ⟨fun hj => ?_, ?_⟩⟩
  · rw [hlog]
    exact List.map_congr_left fun j hj => by simp only [workOf, hold j hj]
  · rw [hold j hj]
    exact (hmem j).mp hj
  · rintro ⟨a, ha, hcommitted⟩
    rcases getElem?_concat_eq_some ha with ha | ⟨-, rfl⟩
    · exact (hmem j).mpr ⟨a, ha, hcommitted⟩
    · rw [he] at hcommitted
      cases hcommitted

/-- A step that commits nothing, of an execution that keeps what it has committed. -/
theorem Logged.keep (h : Logged executions committed) (hi : executions[i]? = some e)
    (hsame : e'.committed = e.committed) (hwork : e.committed = true → e'.work = e.work) :
    Logged (executions.set i e') committed := by
  obtain ⟨order, hnodup, hlog, hmem⟩ := h
  refine ⟨order, hnodup, ?_, fun j => (hmem j).trans ?_⟩
  · rw [hlog]
    refine List.map_congr_left fun j hj => ?_
    by_cases hj' : j = i
    · subst hj'
      obtain ⟨a, ha, hcommitted⟩ := (hmem j).mp hj
      obtain rfl := Option.some.inj (hi.symm.trans ha)
      have hlt := (List.getElem?_eq_some_iff.mp hi).1
      rw [workOf_of_getElem? hi, workOf_of_getElem? (List.getElem?_set_self hlt), hwork hcommitted]
    · rw [workOf_set_of_ne hj']
  · by_cases hj' : j = i
    · subst hj'
      have hlt := (List.getElem?_eq_some_iff.mp hi).1
      simp [hi, List.getElem?_set_self hlt, hsame]
    · simp [List.getElem?_set_ne (Ne.symm hj')]

/-- **A commit is the next of the log.** -/
theorem Logged.commit (h : Logged executions committed) (hi : executions[i]? = some e)
    (hopen : e.committed = false) (hdone : e'.committed = true) :
    Logged (executions.set i e') (committed ++ [e'.work]) := by
  obtain ⟨order, hnodup, hlog, hmem⟩ := h
  have hlt := (List.getElem?_eq_some_iff.mp hi).1
  have hself : (executions.set i e')[i]? = some e' := List.getElem?_set_self hlt
  have hnew : i ∉ order := by
    intro hmem'
    obtain ⟨a, ha, hcommitted⟩ := (hmem i).mp hmem'
    obtain rfl := Option.some.inj (hi.symm.trans ha)
    rw [hopen] at hcommitted
    cases hcommitted
  refine ⟨order ++ [i], ?_, ?_, fun j => ?_⟩
  · exact List.nodup_append.mpr ⟨hnodup, List.nodup_singleton i, fun a ha b hb hab =>
      hnew (List.mem_singleton.mp hb ▸ hab ▸ ha)⟩
  · rw [List.map_append, List.map_singleton, workOf_of_getElem? hself, hlog]
    congr 1
    exact List.map_congr_left fun j hj =>
      (workOf_set_of_ne fun hji : j = i => hnew (hji ▸ hj)).symm
  · by_cases hj' : j = i
    · subst hj'
      simp [hself, hdone]
    · simp only [List.mem_append, List.mem_singleton, hj', or_false,
        List.getElem?_set_ne (Ne.symm hj')]
      exact hmem j

/-! ## Where an execution stands -/

/-- **What the database has open over the connection of an execution**, place by place. -/
inductive Sound (db : Database Handle Work) : Execution Buf Handle Work → Prop
  | waiting (call : PoolCall Buf) : Sound db (.start call)
  | taken {conn : DBConnection Handle} (call : PoolCall Buf) :
      db.uncommitted conn.dbcHandle = [] →
      Sound db ⟨call, .autocommitOff, some conn, true, [], [], false⟩
  | running {conn : DBConnection Handle} {call : PoolCall Buf} {ran rest : List (Item Buf)}
      {work : List Work} : ran ++ rest = call.items → db.IsManual conn.dbcHandle →
      db.uncommitted conn.dbcHandle = work →
      Sound db ⟨call, .jobs rest, some conn, true, ran, work, false⟩
  | ended {place : Place Buf} {conn : DBConnection Handle} (call : PoolCall Buf)
      (work : List Work) : place = .sendPacket ∨ place = .autocommitOn ∨ place = .freeConnection →
      db.uncommitted conn.dbcHandle = [] →
      Sound db ⟨call, place, some conn, true, call.items, work, true⟩
  | returned (call : PoolCall Buf) (work : List Work) :
      Sound db ⟨call, .returned, none, true, call.items, work, true⟩
  | procedure {conn : DBConnection Handle} (requestSessionId : UInt64) (packetId : PacketId)
      (recvBuffer : Buf) : db.uncommitted conn.dbcHandle = [] →
      Sound db ⟨.procedureHandleImpl requestSessionId packetId recvBuffer, .freeConnection,
        some conn, true, [], [], false⟩
  | procedureReturned (requestSessionId : UInt64) (packetId : PacketId) (recvBuffer : Buf) :
      Sound db ⟨.procedureHandleImpl requestSessionId packetId recvBuffer, .returned, none, true,
        [], [], false⟩

/-- It is a matter of that connection alone. -/
theorem Sound.congr (h : Sound db e)
    (hsame : ∀ conn, e.conn = some conn → db.SameOver db' conn.dbcHandle) : Sound db' e := by
  cases h with
  | waiting call => exact .waiting call
  | taken call hopen => exact .taken call ((hsame _ rfl).uncommitted.trans hopen)
  | running hran hmanual hopen =>
    exact .running hran ((hsame _ rfl).isManual.mpr hmanual) ((hsame _ rfl).uncommitted.trans hopen)
  | ended call work hplace hopen =>
    exact .ended call work hplace ((hsame _ rfl).uncommitted.trans hopen)
  | returned call work => exact .returned call work
  | procedure requestSessionId packetId recvBuffer hopen =>
    exact .procedure _ _ _ ((hsame _ rfl).uncommitted.trans hopen)
  | procedureReturned requestSessionId packetId recvBuffer => exact .procedureReturned _ _ _

/-- **It commits whole batches only.** -/
theorem Sound.settled (h : Sound db e) : e.Settled := by
  cases h with
  | waiting call => exact ⟨fun h => (by cases h), fun h => (by cases h)⟩
  | taken call hopen => exact ⟨fun h => (by cases h), fun h => (by cases h)⟩
  | running hran hmanual hopen => exact ⟨fun h => (by cases h), fun h => (by cases h)⟩
  | ended call work hplace hopen => exact ⟨fun _ => rfl, fun _ _ _ _ _ => rfl⟩
  | returned call work => exact ⟨fun _ => rfl, fun _ _ _ _ _ => rfl⟩
  | procedure requestSessionId packetId recvBuffer hopen =>
    exact ⟨fun h => (by cases h), fun h => (by cases h)⟩
  | procedureReturned requestSessionId packetId recvBuffer =>
    exact ⟨fun h => (by cases h), fun _ _ _ _ h => (by cases h)⟩

/-! ## What one call does -/

/-- An execution goes on: as the same call, and with what it has committed. -/
structure GoesOn (e e' : Execution Buf Handle Work) : Prop where
  call : e'.call = e.call
  work : e.committed = true → e'.work = e.work

variable [DecidableEq Handle]

/-- **Everything the next call of an execution can do.** -/
inductive Stepped (s : State Buf Handle Work) (i : ℕ) (e : Execution Buf Handle Work) :
    State Buf Handle Work → Prop
  | crash : Stepped s i e s.crash
  /-- It takes the front connection. -/
  | took {e' : Execution Buf Handle Work} {conn : DBConnection Handle}
      {connectionList : List (DBConnection Handle)} : s.connectionList = conn :: connectionList →
      e.conn = none → e'.conn = some conn → GoesOn e e' → e'.committed = e.committed →
      Sound s.db e' → Stepped s i e { s.setExecution i e' with connectionList }
  /-- It works over its connection and commits nothing. -/
  | worked {e' : Execution Buf Handle Work} {conn : DBConnection Handle}
      {db : Database Handle Work} {replies : List (UInt64 × ResultPacket)} :
      e.conn = some conn → e'.conn = some conn → GoesOn e e' → e'.committed = e.committed →
      Sound db e' → db.committed = s.db.committed →
      (∀ c ≠ conn.dbcHandle, s.db.SameOver db c) →
      (∀ r ∈ replies, r ∈ s.replies ∨ e'.Replied r) →
      Stepped s i e { s.setExecution i e' with db, replies }
  /-- It commits, and the server goes on or not. -/
  | committed {e' : Execution Buf Handle Work} (conn : DBConnection Handle) (crashed : Bool) :
      e.conn = some conn → e'.conn = some conn → GoesOn e e' → e.committed = false →
      e'.committed = true → e'.Settled →
      (crashed = false → Sound (s.db.commit conn.dbcHandle) e') →
      (s.db.commit conn.dbcHandle).committed = s.db.committed ++ [e'.work] →
      Stepped s i e { s.setExecution i e' with db := s.db.commit conn.dbcHandle, crashed }
  /-- It gives its connection back, with nothing open. -/
  | gave {e' : Execution Buf Handle Work} {conn : DBConnection Handle} : e.conn = some conn →
      e'.conn = none → GoesOn e e' → e'.committed = e.committed → Sound s.db e' →
      s.db.uncommitted conn.dbcHandle = [] →
      Stepped s i e
        { s.setExecution i e' with connectionList := s.connectionList ++ [conn] }

/-- **The next call does one of these.** -/
theorem Sound.stepped {answer : Answer Work} (hs : Sound s.db e)
    (hidle : ∀ conn ∈ s.connectionList, s.db.uncommitted conn.dbcHandle = [])
    (h : s.advance i e answer = some s') : Stepped s i e s' := by
  cases hs with
  | waiting call =>
    simp only [State.advance, Execution.start] at h
    split at h
    · cases h
      exact .crash
    · rename_i conn connectionList hlist
      cases h
      have hopen : s.db.uncommitted conn.dbcHandle = [] :=
        hidle conn (hlist ▸ List.mem_cons_self)
      cases call with
      | doBatchedJob requestSessionId jobKey batchedJob =>
        exact .took hlist rfl rfl ⟨rfl, fun h => by cases h⟩ rfl (.taken _ hopen)
      | procedureHandleImpl requestSessionId packetId recvBuffer =>
        exact .took hlist rfl rfl ⟨rfl, fun h => by cases h⟩ rfl (.procedure _ _ _ hopen)
  | @taken conn call hopen =>
    simp only [State.advance] at h
    split at h
    · cases h
      refine .worked rfl rfl ⟨rfl, fun h => by cases h⟩ rfl
        (.running (List.nil_append _) Database.isManual_autocommitOff ?_)
        Database.committed_autocommitOff (fun c hc => Database.sameOver_autocommitOff hc)
        fun r hr => .inl hr
      rw [Database.uncommitted_autocommitOff, hopen]
    · cases h
      exact .crash
  | @running conn call ran rest work hran hmanual hopen =>
    cases rest with
    | nil =>
      obtain ⟨hclosed, hlog⟩ := hmanual.commit
      rw [List.append_nil] at hran
      simp only [State.advance, State.sqlEndTran, if_true] at h
      split at h
      · cases h
        subst hran
        refine .committed conn s.crashed rfl rfl ⟨rfl, fun h => by cases h⟩
          rfl rfl ⟨fun _ => rfl, fun _ _ _ _ _ => rfl⟩ (fun _ => .ended _ _ (.inl rfl) hclosed) ?_
        rw [hlog, hopen]
      · split at h
        · cases h
          refine .committed conn true rfl rfl ⟨rfl, fun h => by cases h⟩
            rfl rfl ⟨fun _ => hran, fun _ _ _ _ _ => rfl⟩ (fun h => (by cases h)) ?_
          rw [hlog, hopen]
        · cases h
          exact .crash
    | cons item rest =>
      obtain ⟨hmanual', hopen', hlog⟩ := hmanual.execute answer.work
      simp only [State.advance, Bool.true_eq_false, if_false] at h
      cases h
      refine .worked rfl rfl ⟨rfl, fun h => by cases h⟩ rfl (.running ?_ hmanual' ?_) hlog
        (fun c hc => Database.sameOver_execute hc) fun r hr => .inl hr
      · rw [List.append_assoc]
        exact hran
      · rw [hopen', hopen]
  | @ended place conn call work hplace hopen =>
    rcases hplace with rfl | rfl | rfl
    · cases call with
      | procedureHandleImpl requestSessionId packetId recvBuffer => cases h
      | doBatchedJob requestSessionId jobKey batchedJob =>
        cases h
        refine .worked rfl rfl ⟨rfl, fun _ => rfl⟩ rfl (.ended _ _ (.inr (.inl rfl)) hopen) rfl
          (fun _ _ => rfl) fun r hr => ?_
        rcases List.mem_append.mp hr with hr | hr
        · exact .inl hr
        · obtain rfl := List.mem_singleton.mp hr
          exact .inr ⟨rfl, rfl, batchedJob, rfl⟩
    · simp only [State.advance] at h
      obtain ⟨hlog, hopen'⟩ := Database.committed_autocommitOn hopen
      cases h
      split
      · exact .worked rfl rfl ⟨rfl, fun _ => rfl⟩ rfl (.ended _ _ (.inr (.inr rfl)) hopen') hlog
          (fun c hc => Database.sameOver_autocommitOn hc) fun r hr => .inl hr
      · exact .worked rfl rfl ⟨rfl, fun _ => rfl⟩ rfl (.ended _ _ (.inr (.inr rfl)) hopen) rfl
          (fun _ _ => rfl) fun r hr => .inl hr
    · cases h
      exact .gave rfl rfl ⟨rfl, fun _ => rfl⟩ rfl (.returned _ _) hopen
  | returned call work => cases h
  | procedure requestSessionId packetId recvBuffer hopen =>
    cases h
    exact .gave rfl rfl ⟨rfl, fun _ => rfl⟩ rfl (.procedureReturned _ _ _) hopen
  | procedureReturned requestSessionId packetId recvBuffer => cases h

/-! ## Whole runs -/

/-- **The invariant**, for the connections `Initialize` made. -/
structure Invariant (created : List (DBConnection Handle)) (s : State Buf Handle Work) : Prop where
  lends : Lends created s.connectionList Execution.conn s.executions
  logged : Logged s.executions s.db.committed
  replied : ∀ r ∈ s.replies, ∃ e ∈ s.executions, e.Replied r
  settled : ∀ e ∈ s.executions, e.Settled
  sound : s.crashed = false → ∀ e ∈ s.executions, Sound s.db e
  idle : s.crashed = false → ∀ conn ∈ s.connectionList, s.db.uncommitted conn.dbcHandle = []

/-- The connections are different ones, and so are their handles. -/
structure Apart (created : List (DBConnection Handle)) : Prop where
  nodup : created.Nodup
  handles : ∀ c ∈ created, ∀ d ∈ created, c.dbcHandle = d.dbcHandle → c = d

variable {created : List (DBConnection Handle)}

/-- **What one execution does over its connection, no other notices.** -/
theorem Invariant.others (h : Invariant created s) (hapart : Apart created)
    (hi : s.executions[i]? = some e) (hconn : e.conn = some conn)
    (hframe : ∀ c ≠ conn.dbcHandle, s.db.SameOver db c) :
    (∀ (j : ℕ) (a : Execution Buf Handle Work), j ≠ i → s.executions[j]? = some a → Sound s.db a →
        Sound db a) ∧
      ∀ c ∈ s.connectionList, s.db.SameOver db c.dbcHandle := by
  have hmem : conn ∈ created := h.lends.mem_of_held hi hconn
  refine ⟨fun j a hj ha hsound => hsound.congr fun c hc => hframe _ fun hsame => ?_,
    fun c hc => hframe _ fun hsame => ?_⟩
  · obtain rfl := hapart.handles c (h.lends.mem_of_held ha hc) conn hmem hsame
    exact hj (h.lends.exclusive hapart.nodup ha hi hc hconn)
  · have hfree : c ∈ created := h.lends.perm_append.subset (List.mem_append_left _ hc)
    obtain rfl := hapart.handles c hfree conn hmem hsame
    exact h.lends.notMem_of_held hapart.nodup hi hconn hc

/-- A reply stays one. -/
theorem Invariant.replied_set (h : Invariant created s) (hi : s.executions[i]? = some e)
    (hgo : GoesOn e e') (hkeep : e.committed = true → e'.committed = true) :
    ∀ r ∈ s.replies, ∃ a ∈ s.executions.set i e', a.Replied r := by
  intro r hr
  obtain ⟨a, ha, hcommitted, hflag, batchedJob, hcall⟩ := h.replied r hr
  obtain ⟨j, hj⟩ := List.mem_iff_getElem?.mp ha
  by_cases hij : j = i
  · subst hij
    obtain rfl := Option.some.inj (hi.symm.trans hj)
    exact ⟨e', List.mem_set (List.getElem?_eq_some_iff.mp hi).1 e', hkeep hcommitted, hflag,
      batchedJob, hgo.call.trans hcall⟩
  · exact ⟨a, List.mem_of_getElem? ((List.getElem?_set_ne (Ne.symm hij)).trans hj), hcommitted,
      hflag, batchedJob, hcall⟩

omit [DecidableEq Handle] in
/-- What holds of the executions and of the one that is new holds of all. -/
theorem forall_mem_set {P : Execution Buf Handle Work → Prop} (h : ∀ a ∈ executions, P a)
    (he : P e') : ∀ a ∈ executions.set i e', P a := fun a ha =>
  (List.mem_or_eq_of_mem_set ha).elim (h a) fun heq => heq ▸ he

/-- **The step lemma.** -/
theorem Invariant.stepped (h : Invariant created s) (hapart : Apart created)
    (hrunning : s.crashed = false) (hi : s.executions[i]? = some e) (hs : Stepped s i e s') :
    Invariant created s' := by
  -- over its connection an execution changes what is open, and the others do not notice
  have hset : ∀ {conn : DBConnection Handle} {db : Database Handle Work}
      {e' : Execution Buf Handle Work}, e.conn = some conn →
      (∀ c ≠ conn.dbcHandle, s.db.SameOver db c) → Sound db e' →
      (∀ a ∈ s.executions.set i e', Sound db a) ∧
        ∀ c ∈ s.connectionList, db.uncommitted c.dbcHandle = [] := by
    intro conn db e' hconn hframe hsound
    obtain ⟨hothers, hfree⟩ := h.others hapart hi hconn hframe
    refine ⟨fun a ha => ?_, fun c hc => (hfree c hc).uncommitted.trans (h.idle hrunning c hc)⟩
    obtain ⟨j, hj⟩ := List.mem_iff_getElem?.mp ha
    rcases getElem?_set_eq_some hj with ⟨-, rfl⟩ | ⟨hij, hj⟩
    · exact hsound
    · exact hothers j a hij hj (h.sound hrunning a (List.mem_of_getElem? hj))
  cases hs with
  | crash =>
    exact ⟨h.lends, h.logged, h.replied, h.settled, fun hc => (by cases hc),
      fun hc => (by cases hc)⟩
  | @took e' conn connectionList hlist hnone hsome hgo hsame hsound =>
    refine ⟨h.lends.lend hi (hlist ▸ .refl _) hnone hsome, h.logged.keep hi hsame hgo.work,
      h.replied_set hi hgo hsame.trans, forall_mem_set h.settled hsound.settled,
      fun _ => forall_mem_set (h.sound hrunning) hsound, fun _ c hc => ?_⟩
    exact h.idle hrunning c (hlist ▸ List.mem_cons_of_mem _ hc)
  | @worked e' conn db replies hconn hconn' hgo hsame hsound hlog hframe hreplies =>
    obtain ⟨hsounds, hidle⟩ := hset hconn hframe hsound
    refine ⟨h.lends.keep hi (hconn'.trans hconn.symm), ?_, fun r hr => ?_,
      forall_mem_set h.settled hsound.settled, fun _ => hsounds, fun _ => hidle⟩
    · show Logged _ db.committed
      rw [hlog]
      exact h.logged.keep hi hsame hgo.work
    · rcases hreplies r hr with hr | hr
      · exact h.replied_set hi hgo hsame.trans r hr
      · exact ⟨e', List.mem_set (List.getElem?_eq_some_iff.mp hi).1 e', hr⟩
  | @committed e' conn crashed hconn hconn' hgo hopen hdone hsettled hsound hlog =>
    have hframe : ∀ c ≠ conn.dbcHandle, s.db.SameOver (s.db.commit conn.dbcHandle) c :=
      fun c hc => Database.sameOver_commit hc
    refine ⟨h.lends.keep hi (hconn'.trans hconn.symm), ?_, h.replied_set hi hgo fun _ => hdone,
      forall_mem_set h.settled hsettled, fun hc => (hset hconn hframe (hsound hc)).1,
      fun hc => (hset hconn hframe (hsound hc)).2⟩
    show Logged _ (s.db.commit conn.dbcHandle).committed
    rw [hlog]
    exact h.logged.commit hi hopen hdone
  | @gave e' conn hconn hnone hgo hsame hsound hopen =>
    refine ⟨h.lends.giveBack hi hconn (List.perm_append_singleton conn _) hnone,
      h.logged.keep hi hsame hgo.work, h.replied_set hi hgo hsame.trans,
      forall_mem_set h.settled hsound.settled,
      fun _ => forall_mem_set (h.sound hrunning) hsound, fun _ c hc => ?_⟩
    rcases List.mem_append.mp hc with hc | hc
    · exact h.idle hrunning c hc
    · obtain rfl := List.mem_singleton.mp hc
      exact hopen

/-- A new execution has done nothing yet. -/
theorem Invariant.join (h : Invariant created s) (call : PoolCall Buf) :
    Invariant created { s with executions := s.executions ++ [.start call] } := by
  have hmem : ∀ {P : Execution Buf Handle Work → Prop}, (∀ a ∈ s.executions, P a) →
      P (.start call) → ∀ a ∈ s.executions ++ [.start call], P a := by
    intro P hall hstart a ha
    rcases List.mem_append.mp ha with ha | ha
    · exact hall a ha
    · obtain rfl := List.mem_singleton.mp ha
      exact hstart
  refine ⟨h.lends.join rfl, h.logged.join rfl, fun r hr => ?_,
    hmem h.settled (show Sound s.db (.start call) from .waiting call).settled,
    fun hc => hmem (h.sound hc) (.waiting call), h.idle⟩
  obtain ⟨a, ha, hreply⟩ := h.replied r hr
  exact ⟨a, List.mem_append_left _ ha, hreply⟩

omit [DecidableEq Handle] in
/-- The connections of a pool come from the driver. -/
theorem mem_connectLoop {driver : Driver Handle} {n k : ℕ} {l : List (DBConnection Handle)}
    (hl : ∀ c ∈ l, ∃ j, driver.connect j = some c) :
    ∀ c ∈ (connectLoop driver n k l).2, ∃ j, driver.connect j = some c := by
  induction n generalizing k l with
  | zero => exact hl
  | succ n ih =>
    unfold connectLoop
    cases hk : driver.connect k with
    | none => exact hl
    | some c =>
      refine ih fun d hd => ?_
      rcases List.mem_append.mp hd with hd | hd
      · exact hl d hd
      · obtain rfl := List.mem_singleton.mp hd
        exact ⟨k, hk⟩

omit [DecidableEq Handle] in
/-- **`Initialize` makes connections with different handles**, for any size. -/
theorem apart_poolInitialize {driver : Driver Handle} {inPoolSize : ℤ}
    (h : poolInitialize driver inPoolSize = (true, created)) : Apart created := by
  cases henv : driver.environment with
  | false =>
    simp only [poolInitialize, henv, if_true] at h
    cases h
  | true =>
    simp only [poolInitialize, henv, Bool.true_eq_false, if_false] at h
    refine ⟨(nodup_connectLoop h (by simp) List.nodup_nil).1, fun c hc d hd hsame => ?_⟩
    have hdriver : ∀ c ∈ (true, created).2, ∃ j, driver.connect j = some c := by
      rw [← h]
      exact mem_connectLoop (by simp)
    obtain ⟨j, hj⟩ := hdriver c hc
    obtain ⟨k, hk⟩ := hdriver d hd
    obtain rfl := driver.fresh hj hk hsame
    exact Option.some.inj (hj.symm.trans hk)

theorem invariant_of_reachable {driver : Driver Handle} {inPoolSize : ℤ}
    (h : (batches driver inPoolSize).Reachable s) :
    ∃ created, Apart created ∧ Invariant created s := by
  induction h with
  | @init s hinit =>
    obtain ⟨hpool, hnone, hdb, hreplies, -⟩ := hinit
    refine ⟨s.connectionList, apart_poolInitialize hpool, .start (by simp [hnone]),
      ⟨[], List.nodup_nil, by rw [hdb]; rfl, by simp [hnone]⟩, by simp [hreplies], by simp [hnone],
      by simp [hnone], fun _ c _ => ?_⟩
    rw [hdb]
    rfl
  | @step s s' event _ _ hstep ih =>
    obtain ⟨created, hapart, hinv⟩ := ih
    refine ⟨created, hapart, ?_⟩
    cases event with
    | call call =>
      simp only [batches, State.step] at hstep
      split at hstep
      · cases hstep
      · cases hstep
        exact hinv.join call
    | advance i answer =>
      simp only [batches, State.step] at hstep
      split at hstep
      · cases hstep
      · rename_i hrunning
        rw [Bool.not_eq_true] at hrunning
        obtain ⟨e, hi, hadvance⟩ := Option.bind_eq_some_iff.mp hstep
        have hsound := hinv.sound hrunning e (List.mem_of_getElem? hi)
        exact hinv.stepped hapart hrunning hi (hsound.stepped (hinv.idle hrunning) hadvance)

/-- **Batches are atomic**, whatever executions run, however their calls interleave, whatever ODBC
answers, and wherever the server crashes. -/
theorem atomic_of_reachable {driver : Driver Handle} {inPoolSize : ℤ}
    (h : (batches driver inPoolSize).Reachable s) : Atomic s := by
  obtain ⟨created, -, hinv⟩ := invariant_of_reachable h
  exact ⟨hinv.logged, hinv.settled, hinv.replied, hinv.idle⟩

/-- A batch of one job, for the key. -/
def oneJob (key : UInt64) : PoolCall (List UInt8) :=
  .doBatchedJob 1 key ⟨1, 9, [(jobPacket 1 key 7 []).item], startPacket 1 key 9 1⟩

/-- **Two batches interleave, and the second crashes the server in its commit**: the first is in the
database and was answered, the second is not. -/
theorem atomic_two : ∃ s : State (List UInt8) ℕ ℕ, Atomic s ∧ s.db.committed = [[10]] ∧
    s.replies = [(1, ⟨3, true⟩)] ∧ s.crashed = true := by
  obtain ⟨s, hs, hf⟩ := (batches countingDriver 2).exists_reachable
    [.call (oneJob 3), .call (oneJob 4), .advance 0 {}, .advance 1 {}, .advance 1 {},
      .advance 0 {}, .advance 1 { work := [20] }, .advance 0 { work := [10] }, .advance 0 {},
      .advance 0 {}, .advance 1 { sqlReturn := .error }]
    (s := ⟨[⟨0, 1⟩, ⟨2, 3⟩], [], ⟨fun _ => .autocommit, []⟩, [], false⟩)
    (f := fun s => s.db.committed = [[10]] ∧ s.replies = [(1, ⟨3, true⟩)] ∧ s.crashed = true)
    ⟨by decide, rfl, rfl, rfl, rfl⟩ (by decide +kernel)
  exact ⟨s, atomic_of_reachable hs, by simpa using hf⟩

end Committed

end DBServer

end DdingGameServer
