import DdingGameServer.DBServer.Assembly
/-!
# DBServer — the number a start packet announces

A start packet announces its jobs as a 32-bit number; `BatchedDBJob` keeps it in an
`unsigned char`. Every pending batch is as its start packet made it, without a job, and the first
job either completes it or loses it. So the only batches that are ever executed hold one job, and
they are those whose number has 1 as its last byte: 1, 257, 513 and so on.
-/

namespace DdingGameServer

namespace DBServer

open GameDB

universe u v

variable {DB : Type v} {Buf : Type u} [SerializationBuf Buf] (handle : DBJobHandler DB Buf)
  {s s' : State DB Buf} {p q start : Packet Buf} {ps : List (Packet Buf)} {k : DBJobKey}
  {b : BatchedDBJob Buf} {run : BatchRun Buf}

/-- **No batch of the start packet is executed with another number of jobs** than it announced,
while the packets `ps` are handled after it. A start packet whose key is pending creates no
batch. -/
def RunsWhole (s : State DB Buf) (start : Packet Buf) (ps : List (Packet Buf)) : Prop :=
  s.batchedDBJobMap.find start.key = none →
    ∀ step ∈ ((s.handlePacket handle start).1.handlePackets handle ps).2,
    ∀ run, .doBatchedJob run ∈ step.2 → run.batchedJob.createdBy = start →
      run.batchedJob.bufferList.length = start.start.batchSize.toNat

/-! ## Pending batches -/

/-- **Every pending batch is as its start packet made it.** -/
def Untouched (s : State DB Buf) : Prop :=
  ∀ k b, s.batchedDBJobMap.find k = some b →
    b.createdBy.packetId = game2DBBatchedDBJob ∧ b.createdBy.key = k ∧ b = b.createdBy.batch

/-- A packet leaves the others as they are, and a batch a job has joined is not put back. -/
theorem Untouched.handlePacket (hs : Untouched s) : Untouched (s.handlePacket handle p).1 := by
  intro k b hfind
  have ht := treated handle s p
  generalize (s.handlePacket handle p).1 = s' at ht hfind
  generalize (s.handlePacket handle p).2 = events at ht
  cases ht with
  | start hid =>
    rcases KeyMap.find_insert_eq_some.mp hfind with hfind | ⟨rfl, -, rfl⟩
    · exact hs k b hfind
    · exact ⟨hid, rfl, rfl⟩
  | invalid => exact hs k b hfind
  | added => exact hs k b (KeyMap.find_of_find_erase hfind)
  | executed => exact hs k b (KeyMap.find_of_find_erase hfind)

/-- The pending batches are untouched in every run. -/
theorem untouched_of_reachable (h : (system handle).Reachable s) : Untouched s := by
  refine System.ReachableUnder.invariant (fun s hinit k b hfind => ?_)
    (fun s p s' hs _ hstep => ?_) h
  · rw [show s.batchedDBJobMap = .empty from hinit] at hfind
    exact nomatch hfind
  · obtain rfl := Option.some.inj hstep
    exact hs.handlePacket handle

/-! ## Executions -/

/-- **What is executed**: a batch of one job, whose number ends in the byte 1. -/
theorem executed_of_untouched (hs : Untouched s)
    (hrun : .doBatchedJob run ∈ (s.handlePacket handle p).2) :
    run.batchedJob.createdBy.key = p.key ∧ p.packetId ≠ game2DBBatchedDBJob ∧
      run.batchedJob.bufferList = [p.item] ∧
      run.batchedJob.createdBy.start.batchSize.toUInt8.toNat = 1 := by
  obtain ⟨hid, b, hfind, hn, rfl⟩ := runOf_of_executed hrun
  obtain ⟨-, hkey, hb⟩ := hs p.key b hfind
  have hempty : b.bufferList = [] := by rw [hb]; rfl
  have hsize : b.createdBy.start.batchSize.toUInt8 = b.batchSize := by rw [hb]; rfl
  refine ⟨hkey, hid, ?_, ?_⟩
  · show b.bufferList ++ [p.item] = [p.item]
    rw [hempty, List.nil_append]
  · show b.createdBy.start.batchSize.toUInt8.toNat = 1
    rw [hsize, hn, hempty, List.length_nil]

/-- And so over a sequence of packets. -/
theorem executed_of_steps {step : Packet Buf × List (Event Buf)} (hs : Untouched s)
    (hstep : step ∈ (s.handlePackets handle ps).2) (hrun : .doBatchedJob run ∈ step.2) :
    ∃ p ∈ ps, run.batchedJob.createdBy.key = p.key ∧ p.packetId ≠ game2DBBatchedDBJob ∧
      run.batchedJob.bufferList = [p.item] ∧
      run.batchedJob.createdBy.start.batchSize.toUInt8.toNat = 1 := by
  induction ps generalizing s with
  | nil => exact nomatch hstep
  | cons p ps ih =>
    rw [handlePackets_cons] at hstep
    rcases List.mem_cons.mp hstep with rfl | hstep
    · exact ⟨p, List.mem_cons_self, executed_of_untouched handle hs hrun⟩
    · obtain ⟨q, hq, hfacts⟩ := ih (hs.handlePacket handle) hstep
      exact ⟨q, List.mem_cons_of_mem p hq, hfacts⟩

/-- **The first job of its key executes a batch whose number ends in the byte 1**; start packets of
a pending key change nothing before it. -/
theorem exists_executed (hfind : s.batchedDBJobMap.find start.key = some start.batch)
    (hsize : start.start.batchSize.toUInt8.toNat = 1) (hq : q ∈ packetsOf start.key ps)
    (hjob : q.packetId ≠ game2DBBatchedDBJob) :
    ∃ step ∈ (s.handlePackets handle ps).2, ∃ run, .doBatchedJob run ∈ step.2 ∧
      run.batchedJob.createdBy = start ∧ run.batchedJob.bufferList.length = 1 := by
  induction ps generalizing s with
  | nil => exact nomatch hq
  | cons p ps ih =>
    rw [handlePackets_cons]
    by_cases hexec : p.key = start.key ∧ p.packetId ≠ game2DBBatchedDBJob
    · obtain ⟨hkey, hid⟩ := hexec
      have hevents := (handlePacket_of_some handle hid (hkey ▸ hfind)).2
      have hone : start.batch.batchSize.toNat = start.batch.bufferList.length + 1 := hsize
      rw [if_pos hone] at hevents
      refine ⟨_, List.mem_cons_self, s.runOf handle p (start.batch.add p), ?_, rfl, rfl⟩
      rw [hevents]
      exact List.mem_append_right _ List.mem_cons_self
    · -- the packet is not the one looked for, and leaves the batch where it is
      have hne : q ≠ p := by
        rintro rfl
        exact hexec ⟨by simpa using (List.mem_filter.mp hq).2, hjob⟩
      have hq' : q ∈ packetsOf start.key ps := by
        obtain ⟨hmem, hk⟩ := List.mem_filter.mp hq
        exact List.mem_filter.mpr ⟨(List.mem_cons.mp hmem).resolve_left hne, hk⟩
      have hfind' : (s.handlePacket handle p).1.batchedDBJobMap.find start.key =
          some start.batch := by
        by_cases hkey : p.key = start.key
        · have hid : p.packetId = game2DBBatchedDBJob := by
            by_contra hid
            exact hexec ⟨hkey, hid⟩
          rw [handlePacket_of_pending handle hid (hkey ▸ hfind)]
          exact hfind
        · exact (handlePacket_of_ne handle hkey).1.trans hfind
      obtain ⟨step, hstep, hrest⟩ := ih hfind' hq'
      exact ⟨step, List.mem_cons_of_mem _ hstep, hrest⟩

/-! ## When the number is kept to -/

/-- **The number is kept to** exactly where it is 1 or does not end in the byte 1, or no batch was
created or no job of its key comes. -/
theorem runsWhole_iff (handle : DBJobHandler DB Buf) (s : State DB Buf) (start : Packet Buf)
    (ps : List (Packet Buf)) (hs : (system handle).Reachable s)
    (hstart : start.packetId = game2DBBatchedDBJob) :
    RunsWhole handle s start ps ↔
      start.start.batchSize.toNat = 1 ∨ start.start.batchSize.toNat % 256 ≠ 1 ∨
        (s.batchedDBJobMap.find start.key).isSome ∨
        ∀ p ∈ packetsOf start.key ps, p.packetId = game2DBBatchedDBJob := by
  have hbyte : start.start.batchSize.toUInt8.toNat = start.start.batchSize.toNat % 256 :=
    UInt32.toNat_toUInt8 _
  have huntouched : Untouched (s.handlePacket handle start).1 :=
    (untouched_of_reachable handle hs).handlePacket handle
  constructor
  · intro h
    by_contra hnot
    push Not at hnot
    obtain ⟨hone, hmod, hfree, q, hq, hjob⟩ := hnot
    have hfind : s.batchedDBJobMap.find start.key = none := by simpa using hfree
    obtain ⟨step, hstep, run, hrun, hcreated, hlen⟩ := exists_executed handle
      (handlePacket_of_start handle hstart hfind) (hbyte.trans hmod) hq hjob
    exact hone ((h hfind step hstep run hrun hcreated).symm.trans hlen)
  · intro h hfind step hstep run hrun hcreated
    obtain ⟨p, hp, hkey, hjob, hlist, hlast⟩ :=
      executed_of_steps handle huntouched hstep hrun
    rw [hcreated] at hkey hlast
    rw [hlist, List.length_singleton]
    rcases h with hone | hmod | hpending | hjobs
    · exact hone.symm
    · exact absurd (hbyte.symm.trans hlast) hmod
    · rw [hfind] at hpending
      cases hpending
    · exact absurd (hjobs p (List.mem_filter.mpr ⟨hp, by simp [hkey]⟩)) hjob

/-- The empty server is one of its runs. -/
theorem reachable_idleServer : (system succeeds).Reachable idleServer :=
  .init rfl

/-- A batch announced with two jobs is not executed with one. -/
theorem runsWhole_two :
    RunsWhole succeeds idleServer (startPacket 7 1 5 2) [jobPacket 7 1 10 []] :=
  (runsWhole_iff succeeds idleServer (startPacket 7 1 5 2) [jobPacket 7 1 10 []]
    reachable_idleServer rfl).mpr (.inr (.inl (by decide)))

/-- **One announced with 257 jobs is.** -/
theorem not_runsWhole_257 :
    (system succeeds).Reachable idleServer ∧
      ¬ RunsWhole succeeds idleServer (startPacket 7 1 5 257) [jobPacket 7 1 10 []] := by
  refine ⟨reachable_idleServer, fun h => ?_⟩
  have hlen := h rfl _ List.mem_cons_self
    ((idleServer.handlePacket succeeds (startPacket 7 1 5 257)).1.runOf succeeds
      (jobPacket 7 1 10 []) ((startPacket 7 1 5 257).batch.add (jobPacket 7 1 10 []))) (by decide)
    rfl
  exact absurd hlen (by decide)

end DBServer

end DdingGameServer
