import DdingGameServer.DBServer.Model
/-!
# DBServer — the transaction of a batch

A batch is meant to be all or nothing. `DoBatchedJob` decides about commit and rollback by
`isSuccess`, which it sets to `true` and never touches again: the result of each job ends in a local
of the loop. So every batch is run to its end, committed and reported as done, which is right
exactly where every job succeeds.
-/

namespace DdingGameServer

namespace DBServer

open GameDB

universe u v

variable {DB : Type v} {Buf : Type u} {handle : DBJobHandler DB Buf} {db : DB}
  {requestSessionId : UInt64} {sessionId : SessionId} {jobKey : DBJobKey}
  {batchedJob : BatchedDBJob Buf} {bufferList : List (Item Buf)} {effects : List (Effect Buf)}

/-! ## Reading a list of effects -/

/-- The job an effect runs, with its result. -/
def Effect.ran : Effect Buf → Option (Item Buf × Bool)
  | .dbJobHandleImpl item result => some (item, result)
  | _ => none

/-- How an effect ends the transaction. -/
def Effect.completion : Effect Buf → Option CompletionType
  | .sqlEndTran completion => some completion
  | _ => none

/-- The reply an effect sends, with the connection it goes to. -/
def Effect.reply : Effect Buf → Option (UInt64 × ResultPacket)
  | .sendPacket requestSessionId resultPacket => some (requestSessionId, resultPacket)
  | _ => none

def jobsRun (effects : List (Effect Buf)) : List (Item Buf × Bool) := effects.filterMap Effect.ran

def ended (effects : List (Effect Buf)) : List CompletionType :=
  effects.filterMap Effect.completion

def replied (effects : List (Effect Buf)) : List (UInt64 × ResultPacket) :=
  effects.filterMap Effect.reply

/-- **All or nothing**, and the reply says which. -/
structure AllOrNothing (requestSessionId : UInt64) (jobKey : DBJobKey)
    (bufferList : List (Item Buf)) (effects : List (Effect Buf)) : Prop where
  /-- Committed exactly if every job was run and returned true. -/
  commit : ended effects = [.sqlCommit] ↔ jobsRun effects = bufferList.map fun item => (item, true)
  /-- A job that returned false is the last one run, and the transaction is rolled back. -/
  rollback : ∀ ran item rest, jobsRun effects = ran ++ (item, false) :: rest →
    rest = [] ∧ ended effects = [.sqlRollback]
  /-- One reply, whose flag is true exactly if the transaction was committed. -/
  reply : ∃ isSuccess, replied effects = [(requestSessionId, ⟨jobKey, isSuccess⟩)] ∧
    (isSuccess = true ↔ ended effects = [.sqlCommit])

/-- The results of the jobs when one is run after the other to the end of the list. -/
def jobResults (handle : DBJobHandler DB Buf) (requestSessionId : UInt64) (sessionId : SessionId) :
    DB → List (Item Buf) → List Bool
  | _, [] => []
  | db, item :: rest =>
    let (result, db) := handle db requestSessionId sessionId item.packetId item.recvBuffer
    result :: jobResults handle requestSessionId sessionId db rest

/-! ## What `DoBatchedJob` does -/

/-- The loop never stops early, whatever the jobs answer. -/
theorem jobLoop_fst_eq_zip :
    (jobLoop handle requestSessionId sessionId true db bufferList).1 =
      bufferList.zip (jobResults handle requestSessionId sessionId db bufferList) := by
  induction bufferList generalizing db with
  | nil => rfl
  | cons item rest ih => simp only [jobLoop, jobResults, List.zip_cons_cons, ih]; rfl

theorem length_jobResults (handle : DBJobHandler DB Buf) (requestSessionId : UInt64)
    (sessionId : SessionId) (db : DB) (bufferList : List (Item Buf)) :
    (jobResults handle requestSessionId sessionId db bufferList).length = bufferList.length := by
  induction bufferList generalizing db with
  | nil => rfl
  | cons item rest ih => simp only [jobResults, List.length_cons, ih]

/-- What only the end of `DoBatchedJob` does is read off its end. -/
private theorem filterMap_doBatchedJob {β : Type*} {f : Effect Buf → Option β}
    (hoff : f .autocommitOff = none) (hjob : ∀ item result, f (.dbJobHandleImpl item result) = none) :
    (doBatchedJob handle db requestSessionId jobKey batchedJob).1.filterMap f =
      [.sqlEndTran .sqlCommit, .sendPacket requestSessionId ⟨jobKey, true⟩,
        .autocommitOn].filterMap f := by
  have hran (ran : List (Item Buf × Bool)) :
      (ran.map fun r => Effect.dbJobHandleImpl r.1 r.2).filterMap f = [] := by
    rw [List.filterMap_map, List.filterMap_eq_nil_iff]
    intro r _
    exact hjob r.1 r.2
  simp only [doBatchedJob, List.cons_append, List.filterMap_cons, hoff, List.filterMap_append, hran,
    if_true, List.nil_append]

theorem jobsRun_doBatchedJob :
    jobsRun (doBatchedJob handle db requestSessionId jobKey batchedJob).1 =
      batchedJob.bufferList.zip
        (jobResults handle requestSessionId batchedJob.sessionId db batchedJob.bufferList) := by
  rw [← jobLoop_fst_eq_zip]
  simp only [doBatchedJob, jobsRun, List.filterMap_cons, List.filterMap_append, List.filterMap_map,
    List.filterMap_nil, List.append_nil, List.cons_append, Effect.ran]
  exact List.filterMap_some

/-- **Every batch is committed.** -/
theorem ended_doBatchedJob :
    ended (doBatchedJob handle db requestSessionId jobKey batchedJob).1 = [.sqlCommit] :=
  filterMap_doBatchedJob rfl fun _ _ => rfl

/-- **Every batch is reported as done.** -/
theorem replied_doBatchedJob :
    replied (doBatchedJob handle db requestSessionId jobKey batchedJob).1 =
      [(requestSessionId, ⟨jobKey, true⟩)] :=
  filterMap_doBatchedJob rfl fun _ _ => rfl

/-- Jobs paired with their results are all successful exactly if the results are. -/
theorem zip_eq_map_true {α : Type*} {l : List α} {results : List Bool}
    (hlen : results.length = l.length) :
    (l.zip results = l.map fun a => (a, true)) ↔ ∀ result ∈ results, result = true := by
  induction l generalizing results with
  | nil =>
    obtain rfl : results = [] := List.eq_nil_of_length_eq_zero hlen
    simp
  | cons a l ih =>
    obtain ⟨result, results, rfl⟩ := List.exists_cons_of_length_eq_add_one hlen
    rw [List.length_cons, List.length_cons, Nat.add_right_cancel_iff] at hlen
    simp [ih hlen]

/-! ## When it is all or nothing -/

/-- **A batch is all or nothing exactly where all its jobs succeed.** -/
theorem allOrNothing_iff (handle : DBJobHandler DB Buf) (db : DB) (requestSessionId : UInt64)
    (jobKey : DBJobKey) (batchedJob : BatchedDBJob Buf) :
    AllOrNothing requestSessionId jobKey batchedJob.bufferList
        (doBatchedJob handle db requestSessionId jobKey batchedJob).1 ↔
      ∀ result ∈ jobResults handle requestSessionId batchedJob.sessionId db batchedJob.bufferList,
        result = true := by
  have hiff := zip_eq_map_true
    (length_jobResults handle requestSessionId batchedJob.sessionId db batchedJob.bufferList)
  constructor
  · intro h
    have hall := h.commit.mp ended_doBatchedJob
    rw [jobsRun_doBatchedJob] at hall
    exact hiff.mp hall
  · intro h
    have hall := hiff.mpr h
    refine ⟨?_, fun ran item rest hran => ?_, true, replied_doBatchedJob, ?_⟩
    · rw [jobsRun_doBatchedJob]
      exact iff_of_true ended_doBatchedJob hall
    · -- No job returned false.
      rw [jobsRun_doBatchedJob, hall] at hran
      have hmem : (item, false) ∈ batchedJob.bufferList.map fun item => (item, true) := by
        rw [hran]
        simp
      simp at hmem
    · exact iff_of_true rfl ended_doBatchedJob

/-- A handler that fails on the packet id 10, and a batch whose first job has it. -/
def failsOnTen : DBJobHandler ℕ (List UInt8) := fun db _ _ packetId _ =>
  if packetId = 10 then (false, db) else (true, db + 1)

def failingBatch : BatchedDBJob (List UInt8) where
  batchSize := 2
  sessionId := 1
  bufferList := [⟨10, [], ⟨7, 10, []⟩⟩, ⟨11, [], ⟨7, 11, []⟩⟩]
  createdBy := ⟨7, game2DBBatchedDBJob, []⟩

/-- Its second job is run although the first failed, and it is committed. -/
theorem not_allOrNothing_failingBatch :
    ¬ AllOrNothing 7 1 failingBatch.bufferList
      (doBatchedJob failsOnTen 0 7 1 failingBatch).1 := by
  intro h
  have hrest := (h.rollback [] ⟨10, [], ⟨7, 10, []⟩⟩ [(⟨11, [], ⟨7, 11, []⟩⟩, true)] (by decide)).1
  exact absurd hrest (by decide)

end DBServer

end DdingGameServer
