import DdingGameServer.DBServer.Workers
/-!
# DBServer — a call that is not interrupted

Where no other call takes a step between the steps of one call, the workers do with its packet what
`State.handlePacket` does at once: the batches the map refers to change in the same way, and the
same batch is executed. So what is proved of packets handled one after the other is about the
workers too, as far as they do not interleave.
-/

namespace DdingGameServer

namespace DBServer

open GameDB

universe u v

variable {DB : Type v} {Buf : Type u} {handle : DBJobHandler DB Buf} {s s' : WorkerState Buf}
  {p : Packet Buf} {position : Position Buf} {key : DBJobKey} {c j n : ℕ} {o : JobObject Buf}

/-- The batches the map refers to. -/
def WorkerState.batches (s : WorkerState Buf) : KeyMap DBJobKey (BatchedDBJob Buf) :=
  ⟨fun key => (s.batchedDBJobMap.find key).bind fun j => s.objects[j]?.map JobObject.batchedJob⟩

/-- The batches that were executed. -/
def WorkerState.executedBatches (s : WorkerState Buf) : List (BatchedDBJob Buf) :=
  s.executed.filterMap fun j => s.objects[j]?.map JobObject.batchedJob

/-- The batch an event executes. -/
def Event.batch : Event Buf → Option (BatchedDBJob Buf)
  | .doBatchedJob run => some run.batchedJob
  | _ => none

/-! ## The batches before and after a step -/

/-- What a key refers to is in the heap. -/
theorem Owned.exists_object (hs : Owned s) (h : s.batchedDBJobMap.find key = some j) :
    ∃ o, s.objects[j]? = some o :=
  ⟨_, List.getElem?_eq_getElem (hs.lt_length (w := .key key) h)⟩

/-- So a batch is found under a key exactly where the key refers to an object. -/
theorem Owned.find_batches (hs : Owned s) :
    (s.batches.find key = none ↔ s.batchedDBJobMap.find key = none) ∧
      ∀ b, s.batches.find key = some b → ∃ j o, s.batchedDBJobMap.find key = some j ∧
        s.objects[j]? = some o ∧ o.batchedJob = b := by
  cases hfind : s.batchedDBJobMap.find key with
  | none =>
    have hnone : s.batches.find key = none := by simp [WorkerState.batches, hfind]
    refine ⟨by simp [hnone], fun b hb => ?_⟩
    rw [hnone] at hb
    exact nomatch hb
  | some j =>
    obtain ⟨o, ho⟩ := hs.exists_object hfind
    have hsome : s.batches.find key = some o.batchedJob := by
      simp [WorkerState.batches, hfind, ho]
    refine ⟨by simp [hsome], fun b hb => ⟨j, o, rfl, ho, ?_⟩⟩
    rw [hsome] at hb
    exact Option.some.inj hb

/-- A new object is found where the map refers to it. -/
theorem Owned.batches_made (hs : Owned s) :
    WorkerState.batches { s with
      objects := s.objects ++ [o]
      batchedDBJobMap := s.batchedDBJobMap.insert key s.objects.length } =
      s.batches.insert key o.batchedJob := by
  ext k b
  have hget : ∀ j, s.batchedDBJobMap.find k = some j → (s.objects ++ [o])[j]? = s.objects[j]? :=
    fun j hj => List.getElem?_append_left (hs.lt_length (w := .key k) hj)
  have hnone : s.batches.find key = none ↔ s.batchedDBJobMap.find key = none := hs.find_batches.1
  rw [KeyMap.find_insert_eq_some, hnone]
  simp only [WorkerState.batches, Option.bind_eq_some_iff, KeyMap.find_insert_eq_some]
  constructor
  · rintro ⟨j, hj | ⟨rfl, hnone, rfl⟩, hb⟩
    · rw [hget j hj] at hb
      exact .inl ⟨j, hj, hb⟩
    · exact .inr ⟨rfl, hnone, by simpa using hb⟩
  · rintro (⟨j, hj, hb⟩ | ⟨rfl, hnone, rfl⟩)
    · exact ⟨j, .inl hj, by rw [hget j hj]; exact hb⟩
    · exact ⟨s.objects.length, .inr ⟨rfl, hnone, rfl⟩, by simp⟩

/-- The batch a key referred to is gone from the map with the key, whatever becomes of its object:
no other key refers to it. -/
theorem Owned.batches_took (hs : Owned s) (hfind : s.batchedDBJobMap.find key = some j)
    (f : JobObject Buf → JobObject Buf) :
    WorkerState.batches { s with
      objects := s.objects.modify j f
      batchedDBJobMap := s.batchedDBJobMap.erase key } = s.batches.erase key := by
  ext1
  funext k
  by_cases hk : k = key
  · subst hk
    simp [WorkerState.batches]
  · rw [KeyMap.find_erase_of_ne hk]
    simp only [WorkerState.batches, KeyMap.find_erase_of_ne hk]
    cases hfind' : s.batchedDBJobMap.find k with
    | none => rfl
    | some i =>
      have hij : j ≠ i := by
        rintro rfl
        have heq : Owner.key k = .key key := hs.unique hfind' hfind
        exact hk (Owner.key.inj heq)
      simp [List.getElem?_modify, hij, Function.comp_def]

/-- What is done to an object that was not executed leaves the executed batches alone. -/
theorem executedBatches_modify (hj : j ∉ s.executed) (f : JobObject Buf → JobObject Buf) :
    (s.executed.filterMap fun i => (s.objects.modify j f)[i]?.map JobObject.batchedJob) =
      s.executedBatches := by
  refine List.filterMap_congr fun i hi => ?_
  have hij : j ≠ i := fun h => hj (h ▸ hi)
  simp [hij]

/-- And so does a new object. -/
theorem Spent.executedBatches_made (hs : Spent s) :
    (s.executed.filterMap fun i => (s.objects ++ [o])[i]?.map JobObject.batchedJob) =
      s.executedBatches := by
  refine List.filterMap_congr fun i hi => ?_
  rw [List.getElem?_append_left (hs.lt_length i hi)]

/-- A batch a key refers to was not executed. -/
theorem Spent.notMem_of_find (hs : Spent s) (hfind : s.batchedDBJobMap.find key = some j) :
    j ∉ s.executed := by
  intro hj
  obtain ⟨_, _, _, heq, _⟩ := hs.running j hj (.key key) hfind
  exact nomatch heq

/-! ## The steps of the last call -/

/-- The state with one more call, at `position`. -/
def WorkerState.lone (s : WorkerState Buf) (p : Packet Buf) (position : Position Buf) :
    WorkerState Buf :=
  { s with calls := s.calls ++ [⟨p, position⟩] }

@[simp] theorem goto_lone (s : WorkerState Buf) (p : Packet Buf)
    (position position' : Position Buf) :
    (s.lone p position).goto s.calls.length ⟨p, position⟩ position' = s.lone p position' := by
  simp [WorkerState.lone, WorkerState.goto]

variable [SerializationBuf Buf]

/-- `n` steps of the `c`-th call and no other. -/
def Alone (c n : ℕ) (s s' : WorkerState Buf) : Prop :=
  (workerSystem Buf).run s (List.replicate n (.advance c)) = some s'

/-- The last call's next step, and then the others. -/
theorem Alone.lone {t : WorkerState Buf}
    (h : (s.lone p position).advance s.calls.length ⟨p, position⟩ = some t)
    (ht : Alone s.calls.length n t s') :
    Alone s.calls.length (n + 1) (s.lone p position) s' := by
  refine System.run_cons_eq_some.mpr ⟨t, ?_, ht⟩
  have hget : (s.lone p position).calls[s.calls.length]? = some ⟨p, position⟩ := by
    simp [WorkerState.lone]
  exact Option.bind_eq_some_iff.mpr ⟨_, hget, h⟩

/-- A job comes to its look-up, after the procedure for key 0. -/
theorem exists_alone_isBatchJobWaitingJob (hid : p.packetId ≠ game2DBBatchedDBJob)
    (h : Alone s.calls.length n
      (s.lone p (.isBatchJobWaitingJob p.key p.packetId p.item.recvBuffer)) s') :
    ∃ n, Alone s.calls.length n (s.lone p p.begins) s' := by
  by_cases hkey : p.key = 0
  · have hbegins : p.begins = .procedureHandleImpl p.key p.packetId p.item.recvBuffer := by
      simp only [Packet.begins, readRequest, if_neg hid]
      exact if_pos hkey
    refine ⟨n + 1, hbegins ▸ .lone ?_ h⟩
    simp [WorkerState.advance]
  · have hbegins : p.begins = .isBatchJobWaitingJob p.key p.packetId p.item.recvBuffer := by
      simp only [Packet.begins, readRequest, if_neg hid]
      exact if_neg hkey
    exact ⟨n, hbegins ▸ h⟩

/-- The state after a call took the object under its key and placed its packet there. -/
def WorkerState.added (s : WorkerState Buf) (p : Packet Buf) (j : ℕ) : WorkerState Buf :=
  { s with
    objects := s.objects.modify j fun o =>
      { o with bufferList := o.bufferList ++ [⟨p.item, s.calls.length⟩] }
    batchedDBJobMap := s.batchedDBJobMap.erase p.key }

/-- The steps from the look-up to the comparison of the sizes. -/
theorem alone_added (hfind : s.batchedDBJobMap.find p.key = some j)
    (h : Alone s.calls.length n ((s.added p j).lone p (.compareSize p.key j)) s') :
    Alone s.calls.length (n + 3)
      (s.lone p (.isBatchJobWaitingJob p.key p.packetId p.item.recvBuffer)) s' := by
  have hfind' : ∀ position, (s.lone p position).batchedDBJobMap.find p.key = some j :=
    fun _ => hfind
  let taken : WorkerState Buf := { s with batchedDBJobMap := s.batchedDBJobMap.erase p.key }
  have hplace : Alone s.calls.length (n + 1)
      (taken.lone p (.emplaceBack p.key p.packetId p.item.recvBuffer j)) s' := by
    refine Alone.lone (s := taken) ?_ h
    simp [WorkerState.advance, WorkerState.added, WorkerState.lone, WorkerState.goto, taken,
      Packet.item]
  have htake : Alone s.calls.length (n + 2)
      (s.lone p (.addItemForJobStart p.key p.packetId p.item.recvBuffer)) s' := by
    refine .lone ?_ hplace
    simp only [WorkerState.advance, hfind', goto_lone]
    rfl
  refine .lone ?_ htake
  simp [WorkerState.advance, hfind']

/-- A batch that is not full is left where the call placed its packet. -/
theorem alone_compareSize_of_ne (ho : s.objects[j]? = some o)
    (hne : ¬ o.batchSize.toNat = o.bufferList.length + 1) :
    Alone s.calls.length 1 ((s.added p j).lone p (.compareSize p.key j))
      ((s.added p j).lone p .returned) := by
  refine Alone.lone (s := s.added p j) ?_ rfl
  simp [WorkerState.advance, WorkerState.lone, WorkerState.goto, WorkerState.added, ho, hne]

/-- The state after the call executed it as well. -/
def WorkerState.ran (s : WorkerState Buf) (p : Packet Buf) (j : ℕ) : WorkerState Buf :=
  { s.added p j with executed := s.executed ++ [j] }

/-- A batch that is full is executed. -/
theorem alone_compareSize_of_eq (ho : s.objects[j]? = some o)
    (heq : o.batchSize.toNat = o.bufferList.length + 1) :
    Alone s.calls.length 2 ((s.added p j).lone p (.compareSize p.key j))
      ((s.ran p j).lone p .returned) := by
  have hlast : Alone s.calls.length 1 ((s.ran p j).lone p (.doBatchedJob p.key j))
      ((s.ran p j).lone p .returned) := by
    refine Alone.lone (s := s.ran p j) ?_ rfl
    simp [WorkerState.advance, WorkerState.lone, WorkerState.goto, WorkerState.ran,
      WorkerState.added]
  refine Alone.lone (s := s.added p j) ?_ hlast
  simp [WorkerState.advance, WorkerState.lone, WorkerState.goto, WorkerState.ran,
    WorkerState.added, ho, heq]

/-- The batch that was executed is the one under the key with the call's packet. -/
theorem executedBatches_ran (ho : s.objects[j]? = some o) (hj : j ∉ s.executed) :
    (s.ran p j).executedBatches = s.executedBatches ++ [o.batchedJob.add p] := by
  have hold := executedBatches_modify hj
    (fun o => { o with bufferList := o.bufferList ++ [⟨p.item, s.calls.length⟩] })
  simp only [WorkerState.executedBatches, WorkerState.ran, WorkerState.added,
    List.filterMap_append] at hold ⊢
  rw [hold]
  simp [ho, BatchedDBJob.add, JobObject.batchedJob]

/-- **A call that is not interrupted handles its packet as `HandlePacket` does**: the batches of the
map and the executed ones change as there, and the call returns. -/
theorem exists_run_handlePacket (hs : Ordered s) (handle : DBJobHandler DB Buf) (db : DB)
    (p : Packet Buf) : ∃ n s',
      (workerSystem Buf).run s (.handlePacket p :: List.replicate n (.advance s.calls.length)) =
        some s' ∧
      s'.calls = s.calls ++ [⟨p, .returned⟩] ∧
      s'.batches = (State.handlePacket handle ⟨s.batches, db⟩ p).1.batchedDBJobMap ∧
      s'.executedBatches = s.executedBatches ++
        (State.handlePacket handle ⟨s.batches, db⟩ p).2.filterMap Event.batch := by
  suffices h : ∃ n s', Alone s.calls.length n (s.lone p p.begins) s' ∧
      s'.calls = s.calls ++ [⟨p, .returned⟩] ∧
      s'.batches = (State.handlePacket handle ⟨s.batches, db⟩ p).1.batchedDBJobMap ∧
      s'.executedBatches = s.executedBatches ++
        (State.handlePacket handle ⟨s.batches, db⟩ p).2.filterMap Event.batch by
    obtain ⟨n, s', hrun, h⟩ := h
    exact ⟨n, s', System.run_cons_eq_some.mpr ⟨_, rfl, hrun⟩, h⟩
  have hprocedure : p.procedure.filterMap Event.batch = [] := by
    simp only [Packet.procedure]
    split <;> rfl
  have htreated := treated handle ⟨s.batches, db⟩ p
  generalize State.handlePacket handle ⟨s.batches, db⟩ p = result at htreated ⊢
  obtain ⟨t, events⟩ := result
  dsimp only at htreated ⊢
  cases htreated with
  | start hid =>
    let object : JobObject Buf :=
      { batchSize := p.start.batchSize.toUInt8, sessionId := p.start.sessionId, bufferList := []
        createdBy := p }
    let made : WorkerState Buf :=
      { s with
        objects := s.objects ++ [object]
        batchedDBJobMap := s.batchedDBJobMap.insert p.key s.objects.length }
    have hbegins : p.begins = .insertBatchJob p.key p.start := by
      simp only [Packet.begins, readRequest, hid, if_true]
      rfl
    refine ⟨1, made.lone p .returned, hbegins ▸ .lone ?_ rfl, rfl, ?_, ?_⟩
    · simp [WorkerState.advance, WorkerState.lone, WorkerState.goto, made, object]
    · exact hs.owned.batches_made (o := object)
    · rw [List.filterMap_nil, List.append_nil]
      exact hs.spent.executedBatches_made
  | invalid hid hfind =>
    have hnone := hs.owned.find_batches.1.mp hfind
    have hrun : Alone s.calls.length 1
        (s.lone p (.isBatchJobWaitingJob p.key p.packetId p.item.recvBuffer))
        (s.lone p .returned) := by
      refine .lone ?_ rfl
      simp [WorkerState.advance, WorkerState.lone, WorkerState.goto, hnone]
    obtain ⟨n, hrun⟩ := exists_alone_isBatchJobWaitingJob hid hrun
    refine ⟨n, _, hrun, rfl, rfl, ?_⟩
    rw [List.filterMap_append, hprocedure]
    exact (List.append_nil _).symm
  | added b hid hfind hsize =>
    obtain ⟨j, o, hj, ho, rfl⟩ := hs.owned.find_batches.2 b hfind
    have hrun := alone_compareSize_of_ne (p := p) ho (by simpa [JobObject.batchedJob] using hsize)
    obtain ⟨n, hrun⟩ := exists_alone_isBatchJobWaitingJob hid (alone_added hj hrun)
    refine ⟨n, _, hrun, rfl, hs.owned.batches_took hj _, ?_⟩
    rw [hprocedure, List.append_nil]
    exact executedBatches_modify (hs.spent.notMem_of_find hj) _
  | executed b hid hfind hsize =>
    obtain ⟨j, o, hj, ho, rfl⟩ := hs.owned.find_batches.2 b hfind
    have hrun := alone_compareSize_of_eq (p := p) ho (by simpa [JobObject.batchedJob] using hsize)
    obtain ⟨n, hrun⟩ := exists_alone_isBatchJobWaitingJob hid (alone_added hj hrun)
    refine ⟨n, _, hrun, rfl, hs.owned.batches_took hj _, ?_⟩
    rw [List.filterMap_append, hprocedure, List.nil_append]
    exact executedBatches_ran ho (hs.spent.notMem_of_find hj)

end DBServer

end DdingGameServer
