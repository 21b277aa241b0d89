import Mathlib.Data.List.Nodup
import DdingGameServer.Common.Lending
import DdingGameServer.Common.System
import DdingGameServer.DBServer.Model
/-!
# DBServer — the connection pool

`DoBatchedJob` and `ProcedureHandleImpl` take a connection from the front of `connectionList`, work
on it and put it back at the end. Any number of them run at a time, on any threads; each takes its
next step whenever the schedule says so, and the steps under `connectionLock` are atomic. An
execution that finds the pool empty crashes the server, and so does an ODBC call that fails: there
the run ends.

`GetConnection` takes a reference to the front of the list, removes the element and then returns a
copy through the reference. The element is gone by then, and its memory may be in use again; what is
returned is taken here to be the connection that was at the front.

The pool lends its connections (`Lends`): what `Initialize` made is at every moment in the list or
with one execution.
-/

namespace DdingGameServer

namespace DBServer

open GameDB

universe u v w

/-- A `DBConnection`. -/
structure DBConnection (Handle : Type w) where
  dbcHandle : Handle
  stmtHandle : Handle
  deriving DecidableEq

/-- **What ODBC gives `Initialize`**: whether the environment is set up, and the connection the
`i`-th turn of the loop opens, `none` where one of its calls fails. -/
structure Driver (Handle : Type w) where
  environment : Bool
  connect : ℕ → Option (DBConnection Handle)
  /-- `SQLAllocHandle` returns a handle that is not in use. -/
  fresh : ∀ {i j c d}, connect i = some c → connect j = some d → c.dbcHandle = d.dbcHandle → i = j

variable {DB : Type v} {Buf : Type u} {Handle : Type w}

/-! ## Opening the pool -/

/-- The loop of `Initialize`, at its turn `i` with `n` turns to go. -/
def connectLoop (driver : Driver Handle) :
    ℕ → ℕ → List (DBConnection Handle) → Bool × List (DBConnection Handle)
  | 0, _, connectionList => (true, connectionList)
  | n + 1, i, connectionList =>
    match driver.connect i with
    | none => (false, connectionList)
    | some conn => connectLoop driver n (i + 1) (connectionList ++ [conn])

/-- `DBConnectionPool::Initialize`: whether it succeeded, and the `connectionList` it leaves. -/
def poolInitialize (driver : Driver Handle) (inPoolSize : ℤ) : Bool × List (DBConnection Handle) :=
  let poolSize := if inPoolSize = 0 then 1 else inPoolSize
  if driver.environment = false then (false, [])
  else connectLoop driver poolSize.toNat 0 []

/-! ## Executions -/

/-- A step of an execution. -/
inductive PoolOp (Buf : Type u)
  | getConnection
  | effect (effect : Effect Buf)
  | freeConnection
  deriving DecidableEq

/-- A call that needs a connection. -/
inductive Call (DB : Type v) (Buf : Type u)
  /-- `db` is the database its transaction finds. -/
  | doBatchedJob (db : DB) (requestSessionId : UInt64) (jobKey : DBJobKey)
      (batchedJob : BatchedDBJob Buf)
  /-- The switch over the procedures is empty. -/
  | procedureHandleImpl (requestSessionId : UInt64) (packetId : PacketId) (recvBuffer : Buf)

/-- What a call does between taking its connection and giving it back. -/
def Call.effects (handle : DBJobHandler DB Buf) : Call DB Buf → List (Effect Buf)
  | .doBatchedJob db requestSessionId jobKey batchedJob =>
    (DBServer.doBatchedJob handle db requestSessionId jobKey batchedJob).1
  | .procedureHandleImpl _ _ _ => []

/-- The steps of a call. -/
def Call.ops (handle : DBJobHandler DB Buf) (call : Call DB Buf) : List (PoolOp Buf) :=
  .getConnection :: (call.effects handle).map .effect ++ [.freeConnection]

/-- A call that is running: the steps it still has to take, and the connection it works on. -/
structure Execution (Buf : Type u) (Handle : Type w) where
  todo : List (PoolOp Buf)
  /-- From `GetConnection` to `FreeConnection`. -/
  conn : Option (DBConnection Handle)

/-- The pool and the executions that use it. -/
structure PoolState (Buf : Type u) (Handle : Type w) where
  connectionList : List (DBConnection Handle)
  executions : List (Execution Buf Handle)

inductive PoolEvent (DB : Type v) (Buf : Type u)
  | call (call : Call DB Buf)
  /-- The `i`-th execution takes its next step. -/
  | advance (i : ℕ)

/-- One step of an execution: the list and the execution after it. `none` where the server
crashes, and where there is no step left. -/
def Execution.advance (connectionList : List (DBConnection Handle)) (e : Execution Buf Handle) :
    Option (List (DBConnection Handle) × Execution Buf Handle) :=
  match e.todo, connectionList, e.conn with
  | .getConnection :: rest, conn :: connectionList, _ => some (connectionList, ⟨rest, some conn⟩)
  | .effect _ :: rest, connectionList, some conn => some (connectionList, ⟨rest, some conn⟩)
  | .freeConnection :: rest, connectionList, some conn =>
    some (connectionList ++ [conn], ⟨rest, none⟩)
  | _, _, _ => none

def PoolState.step (handle : DBJobHandler DB Buf) (s : PoolState Buf Handle) :
    PoolEvent DB Buf → Option (PoolState Buf Handle)
  | .call call => some { s with executions := s.executions ++ [⟨call.ops handle, none⟩] }
  | .advance i =>
    s.executions[i]?.bind fun e =>
      (e.advance s.connectionList).map fun (connectionList, e) =>
        { connectionList, executions := s.executions.set i e }

/-- **The pool**, from an `Initialize` that succeeded. -/
def poolSystem (driver : Driver Handle) (handle : DBJobHandler DB Buf) (inPoolSize : ℤ) :
    System (PoolState Buf Handle) (PoolEvent DB Buf) where
  Init s := poolInitialize driver inPoolSize = (true, s.connectionList) ∧ s.executions = []
  step s := s.step handle

/-! ## What `Initialize` makes -/

variable {driver : Driver Handle} {handle : DBJobHandler DB Buf} {n i : ℕ}
  {l l' : List (DBConnection Handle)} {c : DBConnection Handle} {e e' : Execution Buf Handle}

/-- A loop that succeeds opens one connection a turn, each new to the list. -/
theorem nodup_connectLoop (h : connectLoop driver n i l = (true, l'))
    (hl : ∀ c ∈ l, ∃ j < i, driver.connect j = some c) (hnodup : l.Nodup) :
    l'.Nodup ∧ l'.length = l.length + n := by
  induction n generalizing i l with
  | zero =>
    obtain rfl : l = l' := (Prod.mk.inj h).2
    exact ⟨hnodup, rfl⟩
  | succ n ih =>
    cases hc : driver.connect i with
    | none => simp [connectLoop, hc] at h
    | some c =>
      simp only [connectLoop, hc] at h
      have hnew : c ∉ l := by
        intro hmem
        obtain ⟨j, hj, hcj⟩ := hl c hmem
        have := driver.fresh hcj hc rfl
        omega
      have hmem : ∀ d ∈ l ++ [c], ∃ j < i + 1, driver.connect j = some d := by
        intro d hd
        rcases List.mem_append.mp hd with hd | hd
        · obtain ⟨j, hj, hdj⟩ := hl d hd
          exact ⟨j, by omega, hdj⟩
        · obtain rfl := List.mem_singleton.mp hd
          exact ⟨i, by omega, hc⟩
      have hnodup' : (l ++ [c]).Nodup := by
        rw [List.nodup_append]
        refine ⟨hnodup, List.nodup_singleton c, fun a ha b hb => ?_⟩
        obtain rfl := List.mem_singleton.mp hb
        exact fun hab => hnew (hab ▸ ha)
      obtain ⟨hres, hlen⟩ := ih h hmem hnodup'
      refine ⟨hres, ?_⟩
      rw [hlen, List.length_append, List.length_singleton]
      omega

/-- **`Initialize` makes `p` different connections.** -/
theorem nodup_poolInitialize {p : ℕ} (hp : 1 ≤ p) (h : poolInitialize driver p = (true, l)) :
    l.Nodup ∧ l.length = p := by
  have hne : (p : ℤ) ≠ 0 := by omega
  cases henv : driver.environment with
  | false => simp [poolInitialize, henv] at h
  | true =>
    simp only [poolInitialize, hne, henv, if_false, Int.toNat_natCast, Bool.true_eq_false] at h
    have := nodup_connectLoop h (by simp) List.nodup_nil
    simpa using this

/-! ## The pool over a run -/

/-- Where an execution stands: before `GetConnection`, at work on its connection, or done. -/
inductive Stage : Execution Buf Handle → Prop
  | waiting (effects : List (Effect Buf)) :
      Stage ⟨.getConnection :: effects.map .effect ++ [.freeConnection], none⟩
  | working (conn : DBConnection Handle) (effects : List (Effect Buf)) :
      Stage ⟨effects.map .effect ++ [.freeConnection], some conn⟩
  | done : Stage ⟨[], none⟩

/-- **What one step of an execution does**: it takes the front connection, keeps the one it has,
or gives it back. -/
inductive Advanced : List (DBConnection Handle) → Execution Buf Handle →
    List (DBConnection Handle) → Execution Buf Handle → Prop
  | took {l : List (DBConnection Handle)} {e e' : Execution Buf Handle}
      (c : DBConnection Handle) :
      e.conn = none → e'.conn = some c → Advanced (c :: l) e l e'
  | worked {l : List (DBConnection Handle)} {e e' : Execution Buf Handle} :
      e'.conn = e.conn → Advanced l e l e'
  | gave {l : List (DBConnection Handle)} {e e' : Execution Buf Handle}
      (c : DBConnection Handle) :
      e.conn = some c → e'.conn = none → Advanced l e (l ++ [c]) e'

/-- Each step goes from one stage to the next. -/
theorem Stage.advanced (hs : Stage e) (h : e.advance l = some (l', e')) :
    Stage e' ∧ Advanced l e l' e' := by
  cases hs with
  | waiting effects =>
    cases l with
    | nil => simp [Execution.advance] at h
    | cons c l =>
      simp only [Execution.advance, List.cons_append, Option.some.injEq, Prod.mk.injEq] at h
      obtain ⟨rfl, rfl⟩ := h
      exact ⟨.working c effects, .took c rfl rfl⟩
  | working conn effects =>
    cases effects with
    | nil =>
      simp only [Execution.advance, List.map_nil, List.nil_append, Option.some.injEq,
        Prod.mk.injEq] at h
      obtain ⟨rfl, rfl⟩ := h
      exact ⟨.done, .gave conn rfl rfl⟩
    | cons effect effects =>
      simp only [Execution.advance, List.map_cons, List.cons_append, Option.some.injEq,
        Prod.mk.injEq] at h
      obtain ⟨rfl, rfl⟩ := h
      exact ⟨.working conn effects, .worked rfl⟩
  | done => simp [Execution.advance] at h

/-- An execution that is not done is held up by an empty pool only. -/
theorem Stage.exists_advance (hs : Stage e) (htodo : e.todo ≠ []) (hl : l ≠ []) :
    ∃ l' e', e.advance l = some (l', e') := by
  cases hs with
  | waiting effects =>
    obtain ⟨c, l, rfl⟩ := List.exists_cons_of_ne_nil hl
    exact ⟨_, _, rfl⟩
  | working conn effects =>
    cases effects with
    | nil => exact ⟨_, _, rfl⟩
    | cons effect effects => exact ⟨_, _, rfl⟩
  | done => exact absurd rfl htodo

variable [DecidableEq Handle] {s s' : PoolState Buf Handle} {created : List (DBConnection Handle)}

/-- The invariant: every execution is at one of its stages, and the pool lends what was created. -/
structure Pooled (created : List (DBConnection Handle)) (s : PoolState Buf Handle) : Prop where
  staged : ∀ e ∈ s.executions, Stage e
  lends : Lends created s.connectionList Execution.conn s.executions

/-- A step of one execution keeps the invariant. -/
theorem Pooled.advance (hs : Pooled created s) (hi : s.executions[i]? = some e)
    (h : e.advance s.connectionList = some (l', e')) :
    Pooled created ⟨l', s.executions.set i e'⟩ := by
  obtain ⟨hstage, hadv⟩ := (hs.staged e (List.mem_of_getElem? hi)).advanced h
  refine ⟨fun a ha => ?_, ?_⟩
  · rcases List.mem_or_eq_of_mem_set ha with ha | rfl
    · exact hs.staged a ha
    · exact hstage
  · have hlends := hs.lends
    generalize hl : s.connectionList = l at hadv hlends
    cases hadv with
    | took c hnone hsome => exact hlends.lend hi (.refl _) hnone hsome
    | worked hsame => exact hlends.keep hi hsame
    | gave c hsome hnone => exact hlends.giveBack hi hsome (List.perm_append_singleton c l) hnone

theorem pooled_of_reachable {p : ℕ} (hp : 1 ≤ p) (h : (poolSystem driver handle p).Reachable s) :
    (poolInitialize driver p).2.Nodup ∧ (poolInitialize driver p).2.length = p ∧
      Pooled (poolInitialize driver p).2 s := by
  induction h with
  | init h =>
    obtain ⟨hinit, hnone⟩ := h
    obtain ⟨hnodup, hlen⟩ := nodup_poolInitialize hp hinit
    rw [hinit]
    refine ⟨hnodup, hlen, fun e he => ?_, .start fun e he => ?_⟩
    · exact absurd (hnone ▸ he) List.not_mem_nil
    · exact absurd (hnone ▸ he) List.not_mem_nil
  | @step s s' event _ _ hstep ih =>
    obtain ⟨hnodup, hlen, hs⟩ := ih
    refine ⟨hnodup, hlen, ?_⟩
    cases event with
    | call call =>
      obtain rfl := Option.some.inj hstep
      refine ⟨fun e he => ?_, hs.lends.join rfl⟩
      rcases List.mem_append.mp he with he | he
      · exact hs.staged e he
      · obtain rfl := List.mem_singleton.mp he
        exact .waiting (call.effects handle)
    | advance i =>
      obtain ⟨e, hi, hrest⟩ := Option.bind_eq_some_iff.mp hstep
      obtain ⟨⟨l', e'⟩, hadv, rfl⟩ := Option.map_eq_some_iff.mp hrest
      exact hs.advance hi hadv

/-- **A pool that neither loses nor shares a connection.** -/
structure NeitherLostNorShared (p : ℕ) (created : List (DBConnection Handle))
    (s : PoolState Buf Handle) : Prop where
  /-- The `p` connections that were created are different ones. -/
  distinct : created.Nodup ∧ created.length = p
  /-- Each is once in the list and with no execution, or out of the list and with one. -/
  placed : ∀ c ∈ created,
    (s.connectionList.count c = 1 ∧ ∀ e ∈ s.executions, e.conn ≠ some c) ∨
      (c ∉ s.connectionList ∧
        ∃! i : ℕ, ∃ e, s.executions[i]? = some e ∧ e.conn = some c)
  /-- There are no others. -/
  noOthers : ∀ c, c ∈ s.connectionList ∨ (∃ e ∈ s.executions, e.conn = some c) → c ∈ created
  /-- No two executions hold the same. -/
  exclusive : ∀ (i j : ℕ) (e e' : Execution Buf Handle) c, s.executions[i]? = some e →
    s.executions[j]? = some e' → e.conn = some c → e'.conn = some c → i = j
  /-- When all have finished, the list is the initial one up to order. -/
  returned : (∀ e ∈ s.executions, e.todo = []) → s.connectionList.Perm created

/-- **The connection pool neither loses nor shares a connection**, whatever executions run and
however their steps interleave. -/
theorem neitherLostNorShared_of_reachable {p : ℕ} (hp : 1 ≤ p)
    (h : (poolSystem driver handle p).Reachable s) :
    NeitherLostNorShared p (poolInitialize driver p).2 s := by
  obtain ⟨hnodup, hlen, hs⟩ := pooled_of_reachable hp h
  have hexclusive := fun i j (e e' : Execution Buf Handle) c
    (hi : s.executions[i]? = some e) (hj : s.executions[j]? = some e')
    (he : e.conn = some c) (he' : e'.conn = some c) => hs.lends.exclusive hnodup hi hj he he'
  refine ⟨⟨hnodup, hlen⟩, fun c hc => ?_, fun c hc => ?_, hexclusive, fun hdone => ?_⟩
  · by_cases hfree : c ∈ s.connectionList
    · left
      have hone := hs.lends.once hnodup c
      have hpos := List.count_pos_iff.mpr hfree
      refine ⟨by omega, fun e he hconn => ?_⟩
      obtain ⟨i, hi⟩ := List.mem_iff_getElem?.mp he
      exact hs.lends.notMem_of_held hnodup hi hconn hfree
    · right
      obtain ⟨i, e, hi, he⟩ := hs.lends.exists_holder hc hfree
      refine ⟨hfree, i, ⟨e, hi, he⟩, ?_⟩
      rintro j ⟨e', hj, he'⟩
      exact hexclusive j i e' e c hj hi he' he
  · rcases hc with hc | ⟨e, he, hconn⟩
    · have hpos := List.count_pos_iff.mpr hc
      have hcount := hs.lends c
      exact List.count_pos_iff.mp (by omega)
    · obtain ⟨i, hi⟩ := List.mem_iff_getElem?.mp he
      exact hs.lends.mem_of_held hi hconn
  · refine hs.lends.perm fun e he => ?_
    have hempty := hdone e he
    cases hs.staged e he with
    | waiting effects => simp at hempty
    | working conn effects => simp at hempty
    | done => rfl

/-- A driver whose handles are numbers that count up. -/
def countingDriver : Driver ℕ where
  environment := true
  connect i := some ⟨2 * i, 2 * i + 1⟩
  fresh h h' heq := by
    obtain rfl := Option.some.inj h
    obtain rfl := Option.some.inj h'
    simpa using heq

/-- Two executions share a pool of two; the first has given its connection back. -/
theorem neitherLostNorShared_two : ∃ s : PoolState (List UInt8) ℕ,
    NeitherLostNorShared 2 (poolInitialize countingDriver (2 : ℕ)).2 s ∧
      s.connectionList = [⟨0, 1⟩] ∧ s.executions.map Execution.conn = [none, some ⟨2, 3⟩] := by
  obtain ⟨s, hs, hf⟩ := (poolSystem countingDriver succeeds (2 : ℕ)).exists_reachable
    [.call (.procedureHandleImpl 1 7 []),
      .call (.doBatchedJob () 1 3 ⟨1, 9, [(jobPacket 1 3 7 []).item], startPacket 1 3 9 1⟩),
      .advance 0, .advance 1, .advance 1, .advance 0]
    (s := ⟨[⟨0, 1⟩, ⟨2, 3⟩], []⟩)
    (f := fun s => s.connectionList = [⟨0, 1⟩] ∧
      s.executions.map Execution.conn = [none, some ⟨2, 3⟩])
    ⟨by decide, rfl⟩ (by decide +kernel)
  exact ⟨s, neitherLostNorShared_of_reachable (by decide) hs, by simpa using hf⟩

end DBServer

end DdingGameServer
