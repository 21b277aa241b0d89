import DdingGameServer.DBServer.Assembly
/-!
# DBServer — the treatment of a packet

A packet creates a batch, joins one, is run as a stored procedure, or is reported as invalid. The
branches of `HandlePacket` do not keep the four apart: nothing returns behind
`ProcedureHandleImpl`, so a procedure (a job with the key 0, as `MakeProcedurePacket` sends it) is
looked up as a job as well and is reported as invalid, or joins the batch under the key 0; and a
start packet whose key is pending gets no treatment.
-/

namespace DdingGameServer

namespace DBServer

open GameDB

universe u v

variable {DB : Type v} {Buf : Type u} [SerializationBuf Buf] (handle : DBJobHandler DB Buf)
  {s s' : State DB Buf} {p : Packet Buf} {b : BatchedDBJob Buf}

/-- What can become of a packet. -/
inductive Treatment
  | batchCreated
  | jobAdded
  | procedureRun
  | reportedInvalid
  deriving DecidableEq, Repr

/-- **What becomes of `p`**, read off the state after `HandlePacket` and off what it did. A batch is
out of `batchedDBJobMap` exactly when `AddItemForJobStart` has taken it to add to it. -/
def Gets (s : State DB Buf) (p : Packet Buf) : Treatment → Prop
  | .batchCreated => s.batchedDBJobMap.find p.key = none ∧
      (s.handlePacket handle p).1.batchedDBJobMap.find p.key = some p.batch
  | .jobAdded => (s.batchedDBJobMap.find p.key).isSome ∧
      (s.handlePacket handle p).1.batchedDBJobMap.find p.key = none
  | .procedureRun => .procedureHandleImpl p.requestSessionId p.packetId ∈
      (s.handlePacket handle p).2
  | .reportedInvalid => .invalidJob p.requestSessionId p.packetId ∈ (s.handlePacket handle p).2

/-- **Exactly one treatment**, and a procedure leaves the batches alone. -/
structure TreatedOnce (s : State DB Buf) (p : Packet Buf) : Prop where
  once : ∃! t, Gets handle s p t
  frame : Gets handle s p .procedureRun →
    (s.handlePacket handle p).1.batchedDBJobMap = s.batchedDBJobMap

/-! ## What each kind of packet gets -/

@[simp] theorem procedureHandleImpl_mem_procedure :
    .procedureHandleImpl p.requestSessionId p.packetId ∈ p.procedure ↔ p.key = 0 := by
  unfold Packet.procedure
  split <;> simp_all

@[simp] theorem invalidJob_notMem_procedure :
    .invalidJob p.requestSessionId p.packetId ∉ p.procedure := by
  unfold Packet.procedure
  split <;> simp

/-- A start packet under a free key creates its batch. -/
theorem gets_of_free (hid : p.packetId = game2DBBatchedDBJob)
    (hfind : s.batchedDBJobMap.find p.key = none) (t : Treatment) :
    Gets handle s p t ↔ t = .batchCreated := by
  have hafter := handlePacket_of_start handle hid hfind
  have hevents : (s.handlePacket handle p).2 = [] := by
    have ht := treated handle s p
    generalize (s.handlePacket handle p).1 = s' at ht
    generalize (s.handlePacket handle p).2 = events at ht
    cases ht with
    | start => rfl
    | invalid hid' => exact absurd hid hid'
    | added b hid' => exact absurd hid hid'
    | executed b hid' => exact absurd hid hid'
  cases t with
  | batchCreated => exact iff_of_true ⟨hfind, hafter⟩ rfl
  | jobAdded => simp [Gets, hfind]
  | procedureRun => simp [Gets, hevents]
  | reportedInvalid => simp [Gets, hevents]

/-- Under a pending key it gets nothing. -/
theorem not_gets_of_pending (hid : p.packetId = game2DBBatchedDBJob)
    (hfind : s.batchedDBJobMap.find p.key = some b) (t : Treatment) : ¬ Gets handle s p t := by
  have heq := handlePacket_of_pending handle hid hfind
  cases t <;> simp [Gets, heq, hfind]

/-- A job whose key is not pending is reported, and run as well where the key is 0. -/
theorem gets_of_none (hid : p.packetId ≠ game2DBBatchedDBJob)
    (hfind : s.batchedDBJobMap.find p.key = none) (t : Treatment) :
    Gets handle s p t ↔ t = .reportedInvalid ∨ p.key = 0 ∧ t = .procedureRun := by
  have heq : s.handlePacket handle p =
      (s, p.procedure ++ [.invalidJob p.requestSessionId p.packetId]) := by
    have ht := treated handle s p
    generalize s.handlePacket handle p = o at ht
    obtain ⟨s', events⟩ := o
    cases ht with
    | start hid' => exact absurd hid' hid
    | invalid => rfl
    | added b _ hb => rw [hfind] at hb; cases hb
    | executed b _ hb => rw [hfind] at hb; cases hb
  cases t <;> simp [Gets, heq, hfind]

/-- A job whose key is pending joins the batch, and is run as well where the key is 0. -/
theorem gets_of_some (hid : p.packetId ≠ game2DBBatchedDBJob)
    (hfind : s.batchedDBJobMap.find p.key = some b) (t : Treatment) :
    Gets handle s p t ↔ t = .jobAdded ∨ p.key = 0 ∧ t = .procedureRun := by
  obtain ⟨hmap, hevents⟩ := handlePacket_of_some handle hid hfind
  have hafter : (s.handlePacket handle p).1.batchedDBJobMap.find p.key = none := by
    rw [hmap, KeyMap.find_erase_self]
  have hmem (event : Event Buf) (hrun : ∀ run, event ≠ .doBatchedJob run) :
      event ∈ (s.handlePacket handle p).2 ↔ event ∈ p.procedure := by
    rw [hevents, List.mem_append, or_iff_left]
    split <;> simp [hrun]
  cases t with
  | batchCreated => simp [Gets, hfind]
  | jobAdded => simp [Gets, hfind, hafter]
  | procedureRun => simp [Gets, hmem]
  | reportedInvalid => simp [Gets, hmem]

/-- **Where a batch is executed, the packet is the last of its jobs.** -/
theorem eq_add_of_executed {run : BatchRun Buf}
    (hrun : .doBatchedJob run ∈ (s.handlePacket handle p).2) :
    Gets handle s p .jobAdded ∧
      ∃ b, s.batchedDBJobMap.find p.key = some b ∧ run.batchedJob = b.add p := by
  obtain ⟨hid, b, hfind, -, rfl⟩ := runOf_of_executed hrun
  exact ⟨(gets_of_some handle hid hfind .jobAdded).mpr (.inl rfl), b, hfind, rfl⟩

/-! ## When it is one treatment -/

/-- **A packet is treated once** exactly if it starts a batch under a free key or is a job with
another key than 0. -/
theorem treatedOnce_iff (handle : DBJobHandler DB Buf) (s : State DB Buf) (p : Packet Buf) :
    TreatedOnce handle s p ↔
      p.packetId = game2DBBatchedDBJob ∧ s.batchedDBJobMap.find p.key = none ∨
        p.packetId ≠ game2DBBatchedDBJob ∧ p.key ≠ 0 := by
  by_cases hid : p.packetId = game2DBBatchedDBJob
  · cases hfind : s.batchedDBJobMap.find p.key with
    | none =>
      have hgets := gets_of_free handle hid hfind
      refine iff_of_true ⟨⟨.batchCreated, (hgets _).mpr rfl, fun t ht => (hgets t).mp ht⟩,
        fun hrun => ?_⟩ (.inl ⟨hid, rfl⟩)
      cases (hgets _).mp hrun
    | some b =>
      refine iff_of_false (fun h => ?_) (by simp [hid])
      obtain ⟨t, ht, -⟩ := h.once
      exact not_gets_of_pending handle hid hfind t ht
  · -- the treatment of a job without the procedure
    obtain ⟨t₀, hne, hgets⟩ : ∃ t₀, t₀ ≠ .procedureRun ∧
        ∀ t, Gets handle s p t ↔ t = t₀ ∨ p.key = 0 ∧ t = .procedureRun := by
      cases hfind : s.batchedDBJobMap.find p.key with
      | none => exact ⟨.reportedInvalid, by decide, gets_of_none handle hid hfind⟩
      | some b => exact ⟨.jobAdded, by decide, gets_of_some handle hid hfind⟩
    constructor
    · intro h
      refine .inr ⟨hid, fun hzero => hne ?_⟩
      obtain ⟨t, -, huniq⟩ := h.once
      rw [huniq t₀ ((hgets _).mpr (.inl rfl)),
        huniq .procedureRun ((hgets _).mpr (.inr ⟨hzero, rfl⟩))]
    · rintro (⟨hid', -⟩ | ⟨-, hzero⟩)
      · exact absurd hid' hid
      · have honly (t : Treatment) : Gets handle s p t ↔ t = t₀ := by simp [hgets, hzero]
        refine ⟨⟨t₀, (honly _).mpr rfl, fun t ht => (honly t).mp ht⟩, fun hrun => ?_⟩
        exact absurd ((honly _).mp hrun).symm hne

/-- **A procedure, as `MakeProcedurePacket` sends it**, is run and reported as an invalid job. -/
theorem not_treatedOnce_procedure :
    (system succeeds).Reachable idleServer ∧
      Gets succeeds idleServer (jobPacket 7 0 10 []) .procedureRun ∧
      Gets succeeds idleServer (jobPacket 7 0 10 []) .reportedInvalid ∧
      ¬ TreatedOnce succeeds idleServer (jobPacket 7 0 10 []) := by
  have hrun : Gets succeeds idleServer (jobPacket 7 0 10 []) .procedureRun :=
    show Event.procedureHandleImpl 7 10 ∈ _ by decide
  have hreported : Gets succeeds idleServer (jobPacket 7 0 10 []) .reportedInvalid :=
    show Event.invalidJob 7 10 ∈ _ by decide
  refine ⟨.init rfl, hrun, hreported, fun h => ?_⟩
  cases h.once.unique hrun hreported

end DBServer

end DdingGameServer
