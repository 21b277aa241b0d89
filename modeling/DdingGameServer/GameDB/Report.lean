import DdingGameServer.GameDB.Delivery
import DdingGameServer.GameDB.Wire
/-!
# DBJob — what `ExecuteBatchJob` reports

`ExecuteBatchJob` ignores what its hand-overs return and answers `SUCCESS` after every batch. What
it enqueues are the jobs whose pointers are set, and never the start packet: the start job is made
by the constructor of `DBJob`, which leaves its buffer null. So its `SUCCESS` is wrong for every
batch.
-/

namespace DdingGameServer

namespace GameDB

universe u

variable {Buf : Type u} [SerializationBuf Buf] {readMemory : Memory} {others : ℕ → Interference}
  {c c' : DBClient Buf} {b : BatchedDBJob} {k d : ℕ} {dbJobKey : DBJobKey} {job : DBJob}
  {jobList : List DBJob} {sessionList : List (List Sent)} {s : Sent} {ok : Bool}
  {result : Except ErrorCode Unit}

/-- `ExecuteBatchJob` with its result: the only `return` is `ERROR_CODE::SUCCESS`. -/
def executeBatchJobResult (readMemory : Memory) (others : ℕ → Interference) (c : DBClient Buf)
    (b : BatchedDBJob) : Option (Except ErrorCode Unit × DBClient Buf) :=
  (executeBatchJob readMemory others c b).map fun c => (.ok (), c)

/-- The `batchSize` of the start packet. -/
def announced (b : BatchedDBJob) : UInt32 := UInt32.ofNat b.jobList.length

/-- The packets of batches in all channels: 0 is a start packet, `i + 1` the job `i`. -/
def enqueuedIn (sessionList : List (List Sent)) : List ℕ := sessionList.flatMap batchOf

/-- **The whole batch was enqueued**: the start packet and every job, each once on some channel, and
as many jobs as the start packet announces. -/
structure Enqueued (c c' : DBClient Buf) (b : BatchedDBJob) : Prop where
  packets : (enqueuedIn c'.sessionList).Perm
    (enqueuedIn c.sessionList ++ List.range (b.jobList.length + 1))
  batchSize : (enqueuedIn c'.sessionList).countP (0 < ·) =
    (enqueuedIn c.sessionList).countP (0 < ·) + (announced b).toNat

/-- **Success is reported only of a batch that was enqueued.** -/
def ReportsTruly (readMemory : Memory) (others : ℕ → Interference) (c : DBClient Buf)
    (b : BatchedDBJob) : Prop :=
  ∀ result c', executeBatchJobResult readMemory others c b = some (result, c') →
    result = .ok () → Enqueued c c' b

/-! ## What is enqueued -/

omit [SerializationBuf Buf] in
/-- A packet joins the packets of its channel. -/
theorem enqueuedIn_enqueue (h : d < sessionList.length) :
    (enqueuedIn (enqueue sessionList d s)).Perm (enqueuedIn sessionList ++ batchOf [s]) := by
  induction sessionList generalizing d with
  | nil => exact absurd h (by simp)
  | cons q sessionList ih =>
    cases d with
    | zero =>
      have hq : batchOf (q ++ [s]) = batchOf q ++ batchOf [s] := List.filterMap_append
      simp only [enqueue, List.modify_zero_cons, enqueuedIn, List.flatMap_cons, hq]
      rw [List.append_assoc, List.append_assoc]
      exact (List.perm_append_comm).append_left _
    | succ d =>
      have hrest := ih (d := d) (by simpa using h)
      simp only [enqueue, List.modify_succ_cons, enqueuedIn, List.flatMap_cons] at hrest ⊢
      rw [List.append_assoc]
      exact hrest.append_left _

omit [SerializationBuf Buf] in
/-- What others send is no packet of a batch, wherever it goes. -/
theorem enqueuedIn_interfere (others : Interference) :
    (enqueuedIn (c.interfere others).sessionList).Perm (enqueuedIn c.sessionList) := by
  have hother : ∀ (l : List (List Sent)) (d buffer : ℕ),
      enqueuedIn (enqueue l d ⟨buffer, .other⟩) = enqueuedIn l := by
    intro l d buffer
    induction l generalizing d with
    | nil => simp [enqueue, enqueuedIn]
    | cons q l ih =>
      cases d with
      | zero => simp [enqueue, enqueuedIn, batchOf, Sent.position]
      | succ d =>
        have hrest := ih d
        simp only [enqueue, List.modify_succ_cons, enqueuedIn, List.flatMap_cons] at hrest ⊢
        rw [hrest]
  show (enqueuedIn (others.packets.foldl _ c.sessionList)).Perm _
  generalize c.sessionList = l
  induction others.packets generalizing l with
  | nil => rfl
  | cons packet packets ih => exact (ih _).trans (.of_eq (hother l packet.1 packet.2))

/-- The places of the jobs whose pointers are set, counted from `k`. -/
def readyFrom (k : ℕ) : List DBJob → List ℕ
  | [] => []
  | job :: rest =>
    if job.jobSPBuffer.isSome ∧ job.jobKeyPosition.isSome then k :: readyFrom (k + 1) rest
    else readyFrom (k + 1) rest

theorem le_of_mem_readyFrom {i : ℕ} (h : i ∈ readyFrom k jobList) : k ≤ i := by
  induction jobList generalizing k with
  | nil => exact nomatch h
  | cons job rest ih =>
    rw [readyFrom] at h
    split at h
    · rcases List.mem_cons.mp h with rfl | h
      · exact le_rfl
      · have := ih h
        omega
    · have := ih h
      omega

/-- **One job**: it is enqueued if its pointers are set, and otherwise nothing is. -/
theorem enqueuedIn_executeJob
    (h : executeJob readMemory c (.batch k) job dbJobKey = some (ok, c')) :
    (enqueuedIn c'.sessionList).Perm (enqueuedIn c.sessionList ++ readyFrom k [job]) := by
  cases hbuffer : job.jobSPBuffer with
  | none =>
    simp only [executeJob, hbuffer, Option.some.injEq, Prod.mk.injEq] at h
    obtain ⟨-, rfl⟩ := h
    simp [readyFrom, hbuffer]
  | some buffer =>
    cases hposition : job.jobKeyPosition with
    | none =>
      simp only [executeJob, hbuffer, hposition, Option.some.injEq, Prod.mk.injEq] at h
      obtain ⟨-, rfl⟩ := h
      simp [readyFrom, hposition]
    | some position =>
      simp only [executeJob, hbuffer, hposition] at h
      obtain ⟨value, -, hsend⟩ := Option.bind_eq_some_iff.mp h
      obtain ⟨c₁, hfixed, hend⟩ := Option.bind_eq_some_iff.mp hsend
      obtain ⟨⟨ok₁, c₂⟩, hsent, hc₁⟩ := Option.bind_eq_some_iff.mp hfixed
      obtain rfl := Option.some.inj hc₁
      obtain rfl := (Prod.mk.inj (Option.some.inj hend)).2
      rw [hbuffer] at hsent
      obtain ⟨-, hlt, -, rfl⟩ := sendPacket_eq_some.mp hsent
      have hready : readyFrom k [job] = [k] := by simp [readyFrom, hbuffer, hposition]
      rw [hready]
      exact enqueuedIn_enqueue hlt

/-- **The jobs of a batch**, by induction on the list: exactly those whose pointers are set. -/
theorem enqueuedIn_executeJobs
    (h : executeJobs readMemory dbJobKey others k c jobList = some c') :
    (enqueuedIn c'.sessionList).Perm (enqueuedIn c.sessionList ++ readyFrom k jobList) := by
  induction jobList generalizing k c with
  | nil =>
    obtain rfl := Option.some.inj h
    simp [readyFrom]
  | cons job rest ih =>
    obtain ⟨⟨ok, c₁⟩, hjob, hrest⟩ := Option.bind_eq_some_iff.mp h
    have hone := (enqueuedIn_executeJob hjob).trans
      ((enqueuedIn_interfere (others k)).append_right _)
    have hsplit : readyFrom k (job :: rest) = readyFrom k [job] ++ readyFrom (k + 1) rest := by
      simp only [readyFrom]
      split <;> rfl
    rw [hsplit, ← List.append_assoc]
    exact (ih hrest).trans (hone.append_right _)

/-- **What `ExecuteBatchJob` enqueues**: the jobs whose pointers are set, and no start packet. -/
theorem enqueuedIn_executeBatchJob (h : executeBatchJob readMemory others c b = some c') :
    (enqueuedIn c'.sessionList).Perm (enqueuedIn c.sessionList ++ readyFrom 1 b.jobList) := by
  obtain ⟨c₁, hstart, hjobs⟩ := Option.bind_eq_some_iff.mp h
  obtain ⟨⟨ok, c₂⟩, hsent, hc₁⟩ := Option.bind_eq_some_iff.mp hstart
  obtain rfl := Option.some.inj hc₁
  obtain ⟨-, hsame, -⟩ := sendPacket_none hsent
  have hbefore : (enqueuedIn c₂.sessionList).Perm (enqueuedIn c.sessionList) := by
    rw [hsame]
    exact enqueuedIn_interfere (others 0)
  exact (enqueuedIn_executeJobs hjobs).trans (hbefore.append_right _)

/-! ## What is reported -/

/-- The start packet is missing, so the batch was not enqueued. -/
theorem not_enqueued (h : executeBatchJob readMemory others c b = some c') :
    ¬ Enqueued c c' b := by
  intro henqueued
  have hperm := (enqueuedIn_executeBatchJob h).symm.trans henqueued.packets
  have hsame := (List.perm_append_left_iff _).mp hperm
  have hstart : 0 ∈ readyFrom 1 b.jobList := hsame.mem_iff.mpr (by simp)
  have := le_of_mem_readyFrom hstart
  omega

/-- **`ExecuteBatchJob` never reports truly**: where it returns, it returns `SUCCESS` for a batch it
did not enqueue. -/
theorem not_reportsTruly (h : executeBatchJobResult readMemory others c b = some (result, c')) :
    result = .ok () ∧ ¬ ReportsTruly readMemory others c b := by
  obtain ⟨c₁, hrun, heq⟩ := Option.map_eq_some_iff.mp h
  obtain ⟨rfl, rfl⟩ := Prod.mk.inj heq
  exact ⟨rfl, fun htruly => not_enqueued hrun (htruly _ _ h rfl)⟩

/-- Two jobs, the second without its buffer. -/
def halfReady : BatchedDBJob where
  sessionId := 5
  dbJobKey := 1
  jobList := [⟨some 0, some ⟨0, 4⟩⟩, ⟨none, some ⟨1, 4⟩⟩]
  size_le := by decide

/-- One of three packets is enqueued, and `SUCCESS` is reported. -/
theorem not_reportsTruly_halfReady : ∃ result, ∃ c' : DBClient (List UInt8),
    executeBatchJobResult (fun _ => some 0) (fun _ => ⟨0, []⟩) oneChannel halfReady =
        some (result, c') ∧ enqueuedIn c'.sessionList = [1] ∧ result = .ok () ∧
      ¬ ReportsTruly (fun _ => some 0) (fun _ => ⟨0, []⟩) oneChannel halfReady := by
  obtain ⟨⟨result, c'⟩, hrun, hone⟩ := (Option.any_eq_true
    (fun r => decide (enqueuedIn r.2.sessionList = [1]))
    (executeBatchJobResult (fun _ => some 0) (fun _ => ⟨0, []⟩) oneChannel halfReady)).mp
    (by decide +kernel)
  exact ⟨result, c', hrun, of_decide_eq_true hone, not_reportsTruly hrun⟩

/-- Not even a batch without jobs is reported truly: its start packet is missing. -/
theorem not_reportsTruly_empty :
    ¬ ReportsTruly (fun _ => some 0) (fun _ => ⟨0, []⟩) oneChannel ⟨5, 1, [], by decide⟩ := by
  intro h
  obtain ⟨c', hrun⟩ := Option.isSome_iff_exists.mp
    (show (executeBatchJob (fun _ => some 0) (fun _ => ⟨0, []⟩) oneChannel
      ⟨5, 1, [], by decide⟩).isSome = true by decide +kernel)
  refine not_enqueued hrun (h (.ok ()) c' ?_ rfl)
  rw [executeBatchJobResult, hrun]
  rfl

end GameDB

end DdingGameServer
