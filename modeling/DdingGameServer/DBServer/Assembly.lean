import DdingGameServer.DBServer.Model
/-!
# DBServer — from packets to batches

What the packets of one key do depends on no other key. `AddItemForJobStart` takes the batch out of
the map before it looks whether the batch is complete, and nothing puts it back: the first job
of a batch is also the last one it gets. A batch of one job is complete then; of every longer batch
all further jobs are turned away, and the batch is never run.
-/

namespace DdingGameServer

namespace DBServer

open GameDB

universe u v

variable {DB : Type v} {Buf : Type u} [SerializationBuf Buf] (handle : DBJobHandler DB Buf)
  {s s' : State DB Buf} {p q start : Packet Buf} {ps qs : List (Packet Buf)} {k : DBJobKey}
  {b : BatchedDBJob Buf} {events : List (Event Buf)}

/-! ## The packets of one key -/

/-- The execution of a batch under `k`. -/
def Event.runOf (k : DBJobKey) : Event Buf → Option (BatchRun Buf)
  | .doBatchedJob run => if run.jobKey = k then some run else none
  | _ => none

/-- The executions under `k` among some events. -/
def runsOf (k : DBJobKey) (events : List (Event Buf)) : List (BatchRun Buf) :=
  events.filterMap (Event.runOf k)

/-- The packets with key `k`. -/
def packetsOf (k : DBJobKey) (ps : List (Packet Buf)) : List (Packet Buf) :=
  ps.filter fun p => p.key = k

/-- Whether the packet was reported as an invalid job. -/
def Rejected (events : List (Event Buf)) : Prop :=
  ∃ requestSessionId packetId, .invalidJob requestSessionId packetId ∈ events

/-- **A start packet and the jobs it announces.** Between 1 and 16 jobs are announced under a key
that is not 0 and not pending, and exactly as many job packets of that key follow. -/
structure Announces (s : State DB Buf) (start : Packet Buf) (ps : List (Packet Buf)) : Prop where
  isStart : start.packetId = game2DBBatchedDBJob
  key_ne_zero : start.key ≠ 0
  notPending : s.batchedDBJobMap.find start.key = none
  pos : 1 ≤ start.start.batchSize.toNat
  le : start.start.batchSize.toNat ≤ maximumBatchedDBJobSize
  jobs : ∀ p ∈ packetsOf start.key ps, p.packetId ≠ game2DBBatchedDBJob
  count : (packetsOf start.key ps).length = start.start.batchSize.toNat

/-- **The batch under `k` was put together.** `steps` are the packets after its start, each with
what handling it did, and `s'` is the state after them. -/
structure Assembled (k : DBJobKey) (steps : List (Packet Buf × List (Event Buf)))
    (s' : State DB Buf) : Prop where
  /-- One execution, at the last packet of the key, with all of them in the order of arrival. -/
  executed : ∃ before q events after run, steps = before ++ (q, events) :: after ∧
    q.key = k ∧ packetsOf k (after.map Prod.fst) = [] ∧ runsOf k events = [run] ∧
    (∀ step ∈ before ++ after, runsOf k step.2 = []) ∧
    run.batchedJob.bufferList = (packetsOf k (steps.map Prod.fst)).map Packet.item
  accepted : ∀ step ∈ steps, step.1.key = k → ¬ Rejected step.2
  forgotten : s'.batchedDBJobMap.find k = none

/-! ## One packet -/

omit [SerializationBuf Buf] in
theorem runsOf_append {events' : List (Event Buf)} :
    runsOf k (events ++ events') = runsOf k events ++ runsOf k events' :=
  List.filterMap_append

/-- A stored procedure is not the execution of a batch. -/
@[simp] theorem runsOf_procedure : runsOf k p.procedure = [] := by
  unfold Packet.procedure
  split <;> rfl

theorem not_rejected_procedure : ¬ Rejected p.procedure := by
  rintro ⟨c, id, h⟩
  unfold Packet.procedure at h
  split at h <;> simp at h

/-- **A packet of another key** leaves the batch alone and executes none under `k`. -/
theorem handlePacket_of_ne (h : p.key ≠ k) :
    (s.handlePacket handle p).1.batchedDBJobMap.find k = s.batchedDBJobMap.find k ∧
      runsOf k (s.handlePacket handle p).2 = [] := by
  generalize hs' : (s.handlePacket handle p).1 = s'
  generalize hevents : (s.handlePacket handle p).2 = events
  have ht : Treated handle s p s' events := hs' ▸ hevents ▸ treated handle s p
  cases ht with
  | start => exact ⟨KeyMap.find_insert_of_ne h.symm, rfl⟩
  | invalid =>
    refine ⟨rfl, ?_⟩
    rw [runsOf_append, runsOf_procedure]
    rfl
  | added => exact ⟨KeyMap.find_erase_of_ne h.symm, runsOf_procedure⟩
  | executed =>
    refine ⟨KeyMap.find_erase_of_ne h.symm, ?_⟩
    rw [runsOf_append, runsOf_procedure]
    simp [runsOf, Event.runOf, State.runOf, h]

/-- A job whose key is not pending is turned away and changes nothing. -/
theorem handlePacket_of_none (hid : p.packetId ≠ game2DBBatchedDBJob)
    (hfind : s.batchedDBJobMap.find p.key = none) :
    (s.handlePacket handle p).1 = s ∧ Rejected (s.handlePacket handle p).2 := by
  generalize hs' : (s.handlePacket handle p).1 = s'
  generalize hevents : (s.handlePacket handle p).2 = events
  have ht : Treated handle s p s' events := hs' ▸ hevents ▸ treated handle s p
  cases ht with
  | start hid' => exact absurd hid' hid
  | invalid => exact ⟨rfl, _, _, List.mem_append_right _ (List.mem_singleton.mpr rfl)⟩
  | added b _ hb => rw [hfind] at hb; exact nomatch hb
  | executed b _ hb => rw [hfind] at hb; exact nomatch hb

/-- **A job takes its batch out of the map**, and executes it where it is complete. -/
theorem handlePacket_of_some (hid : p.packetId ≠ game2DBBatchedDBJob)
    (hfind : s.batchedDBJobMap.find p.key = some b) :
    (s.handlePacket handle p).1.batchedDBJobMap = s.batchedDBJobMap.erase p.key ∧
      (s.handlePacket handle p).2 = p.procedure ++
        if b.batchSize.toNat = b.bufferList.length + 1 then
          [.doBatchedJob (s.runOf handle p (b.add p))] else [] := by
  generalize hs' : (s.handlePacket handle p).1 = s'
  generalize hevents : (s.handlePacket handle p).2 = events
  have ht : Treated handle s p s' events := hs' ▸ hevents ▸ treated handle s p
  cases ht with
  | start hid' => exact absurd hid' hid
  | invalid _ hb => rw [hfind] at hb; exact nomatch hb
  | added b' _ hb hn =>
    obtain rfl : b = b' := by rw [hfind] at hb; exact Option.some.inj hb
    exact ⟨rfl, by rw [if_neg hn, List.append_nil]⟩
  | executed b' _ hb hn =>
    obtain rfl : b = b' := by rw [hfind] at hb; exact Option.some.inj hb
    exact ⟨rfl, by rw [if_pos hn]⟩

/-- A start packet makes a batch of a key that is not pending. -/
theorem handlePacket_of_start (hid : p.packetId = game2DBBatchedDBJob)
    (hfind : s.batchedDBJobMap.find p.key = none) :
    (s.handlePacket handle p).1.batchedDBJobMap.find p.key = some p.batch := by
  generalize hs' : (s.handlePacket handle p).1 = s'
  generalize hevents : (s.handlePacket handle p).2 = events
  have ht : Treated handle s p s' events := hs' ▸ hevents ▸ treated handle s p
  cases ht with
  | start => exact KeyMap.find_insert_eq_some.mpr (.inr ⟨rfl, hfind, rfl⟩)
  | invalid hid' => exact absurd hid hid'
  | added b hid' => exact absurd hid hid'
  | executed b hid' => exact absurd hid hid'

/-- A start packet under a pending key does nothing at all. -/
theorem handlePacket_of_pending (hid : p.packetId = game2DBBatchedDBJob)
    (hfind : s.batchedDBJobMap.find p.key = some b) :
    s.handlePacket handle p = (s, []) := by
  have ht := treated handle s p
  generalize s.handlePacket handle p = o at ht
  obtain ⟨s', events⟩ := o
  cases ht with
  | start => rw [KeyMap.insert_of_some hfind]
  | invalid hid' => exact absurd hid hid'
  | added b hid' => exact absurd hid hid'
  | executed b hid' => exact absurd hid hid'

/-! ## A sequence of packets -/

theorem handlePackets_cons : s.handlePackets handle (p :: ps) =
    (((s.handlePacket handle p).1.handlePackets handle ps).1,
      (p, (s.handlePacket handle p).2) ::
        ((s.handlePacket handle p).1.handlePackets handle ps).2) := rfl

/-- A sequence in two parts passes through the state between them. -/
theorem handlePackets_append : s.handlePackets handle (ps ++ qs) =
    (((s.handlePackets handle ps).1.handlePackets handle qs).1,
      (s.handlePackets handle ps).2 ++ ((s.handlePackets handle ps).1.handlePackets handle qs).2) :=
    by
  induction ps generalizing s with
  | nil => rfl
  | cons p ps ih => simp only [List.cons_append, handlePackets_cons, ih]

theorem map_fst_handlePackets : (s.handlePackets handle ps).2.map Prod.fst = ps := by
  induction ps generalizing s with
  | nil => rfl
  | cons p ps ih => simp only [handlePackets_cons, List.map_cons, ih]

/-- **Packets of other keys** leave the batch alone and execute none under `k`. -/
theorem handlePackets_of_ne (h : packetsOf k ps = []) :
    (s.handlePackets handle ps).1.batchedDBJobMap.find k = s.batchedDBJobMap.find k ∧
      ∀ step ∈ (s.handlePackets handle ps).2, step.1.key ≠ k ∧ runsOf k step.2 = [] := by
  induction ps generalizing s with
  | nil => exact ⟨rfl, fun step hstep => nomatch hstep⟩
  | cons p ps ih =>
    have hp : p.key ≠ k := by
      intro hk
      simp [packetsOf, hk] at h
    have hps : packetsOf k ps = [] := by simpa [packetsOf, hp] using h
    obtain ⟨hfind, hruns⟩ := handlePacket_of_ne handle (s := s) hp
    obtain ⟨hfind', hsteps⟩ := ih (s := (s.handlePacket handle p).1) hps
    rw [handlePackets_cons]
    refine ⟨hfind'.trans hfind, fun step hstep => ?_⟩
    rcases List.mem_cons.mp hstep with rfl | hstep
    · exact ⟨hp, hruns⟩
    · exact hsteps step hstep

/-- The first packet of a key, and what comes before and after it. -/
theorem exists_first (hne : packetsOf k ps ≠ []) : ∃ before q after, ps = before ++ q :: after ∧
    packetsOf k before = [] ∧ q.key = k ∧ packetsOf k ps = q :: packetsOf k after := by
  obtain ⟨q, rest, hq⟩ := List.exists_cons_of_ne_nil hne
  obtain ⟨before, after, rfl, hbefore, hk, hrest⟩ := List.filter_eq_cons_iff.mp hq
  refine ⟨before, q, after, rfl, ?_, by simpa using hk, hq.trans (by rw [← hrest]; rfl)⟩
  exact List.filter_eq_nil_iff.mpr hbefore

/-- Without a pending batch, a job of the key is turned away. -/
theorem rejected_of_none (hjobs : ∀ p ∈ packetsOf k ps, p.packetId ≠ game2DBBatchedDBJob)
    (hfind : s.batchedDBJobMap.find k = none) (hne : packetsOf k ps ≠ []) :
    ∃ step ∈ (s.handlePackets handle ps).2, step.1.key = k ∧ Rejected step.2 := by
  obtain ⟨before, q, after, rfl, hbefore, rfl, hq⟩ := exists_first hne
  have hid := hjobs q (by rw [hq]; exact List.mem_cons_self)
  have hfind' := (handlePackets_of_ne handle (s := s) hbefore).1.trans hfind
  have hrej := (handlePacket_of_none handle hid hfind').2
  rw [handlePackets_append, handlePackets_cons]
  exact ⟨_, List.mem_append_right _ List.mem_cons_self, rfl, hrej⟩

/-- **A job takes the batch of its key out of the map**, so that a second one is turned away. -/
theorem rejected_of_two (hjobs : ∀ p ∈ packetsOf k ps, p.packetId ≠ game2DBBatchedDBJob)
    (htwo : 1 < (packetsOf k ps).length) :
    ∃ step ∈ (s.handlePackets handle ps).2, step.1.key = k ∧ Rejected step.2 := by
  have hne : packetsOf k ps ≠ [] := List.ne_nil_of_length_pos (by omega)
  cases hfind : s.batchedDBJobMap.find k with
  | none => exact rejected_of_none handle hjobs hfind hne
  | some b =>
    obtain ⟨before, q, after, rfl, hbefore, rfl, hq⟩ := exists_first hne
    rw [hq] at hjobs htwo
    have hfind' := (handlePackets_of_ne handle (s := s) hbefore).1.trans hfind
    obtain ⟨hmap, -⟩ := handlePacket_of_some handle (hjobs q List.mem_cons_self) hfind'
    have hafter : packetsOf q.key after ≠ [] :=
      List.ne_nil_of_length_pos (by simpa using htwo)
    obtain ⟨step, hstep, hkey, hrej⟩ := rejected_of_none handle
      (fun p hp => hjobs p (List.mem_cons_of_mem _ hp))
      (by rw [hmap, KeyMap.find_erase_self]) hafter
    rw [handlePackets_append, handlePackets_cons]
    exact ⟨step, List.mem_append_right _ (List.mem_cons_of_mem _ hstep), hkey, hrej⟩

/-- **A pending batch of one job is put together by it**, wherever among other packets it comes. -/
theorem assembled_of_one (hid : q.packetId ≠ game2DBBatchedDBJob) (hq : packetsOf k ps = [q])
    (hfind : s.batchedDBJobMap.find k = some b) (hempty : b.bufferList = [])
    (hsize : b.batchSize.toNat = 1) :
    Assembled k (s.handlePackets handle ps).2 (s.handlePackets handle ps).1 := by
  have hne : packetsOf k ps ≠ [] := by simp [hq]
  obtain ⟨before, q', after, rfl, hbefore, rfl, hq'⟩ := exists_first hne
  obtain ⟨rfl, hnil⟩ := List.cons.inj (hq.symm.trans hq')
  have hafter : packetsOf q.key after = [] := hnil.symm
  have hfst : (s.handlePackets handle before).2.map Prod.fst = before :=
    map_fst_handlePackets handle
  obtain ⟨hfind', hruns⟩ := handlePackets_of_ne handle (s := s) hbefore
  rw [handlePackets_append, handlePackets_cons]
  generalize s.handlePackets handle before = r at hfind' hruns hfst ⊢
  obtain ⟨hmap, hevents⟩ := handlePacket_of_some handle hid (hfind'.trans hfind)
  rw [if_pos (by rw [hsize, hempty]; rfl)] at hevents
  generalize r.1.handlePacket handle q = o at hmap hevents ⊢
  obtain ⟨hfind'', hruns'⟩ := handlePackets_of_ne handle (s := o.1) hafter
  have hrun : runsOf q.key o.2 = [r.1.runOf handle q (b.add q)] := by
    rw [hevents, runsOf_append, runsOf_procedure]
    simp [runsOf, Event.runOf, State.runOf]
  refine ⟨⟨_, q, _, _, _, rfl, rfl, ?_, hrun, fun step hstep => ?_, ?_⟩,
    fun step hstep hkey => ?_, ?_⟩
  · rw [map_fst_handlePackets]
    exact hafter
  · rcases List.mem_append.mp hstep with hstep | hstep
    · exact (hruns step hstep).2
    · exact (hruns' step hstep).2
  · rw [List.map_append, List.map_cons, hfst, map_fst_handlePackets, hq]
    simp [State.runOf, BatchedDBJob.add, hempty]
  · -- only `q` has the key, and `q` is not turned away
    rcases List.mem_append.mp hstep with hstep | hstep
    · exact absurd hkey (hruns step hstep).1
    rcases List.mem_cons.mp hstep with rfl | hstep
    · rintro ⟨c, id, hmem⟩
      rw [hevents] at hmem
      rcases List.mem_append.mp hmem with hmem | hmem
      · exact not_rejected_procedure ⟨c, id, hmem⟩
      · simp at hmem
    · exact absurd hkey (hruns' step hstep).1
  · rw [hfind'', hmap, KeyMap.find_erase_self]

/-! ## When a batch is put together -/

/-- The announced number survives the narrowing to an `unsigned char`. -/
theorem Announces.toNat_batchSize (h : Announces s start ps) :
    start.batch.batchSize.toNat = start.start.batchSize.toNat := by
  have hle := h.le
  show start.start.batchSize.toUInt8.toNat = _
  rw [maximumBatchedDBJobSize] at hle
  rw [UInt32.toNat_toUInt8]
  omega

/-- **A batch is put together exactly if it has one job.** -/
theorem assembled_iff_one (h : Announces s start ps) :
    Assembled start.key ((s.handlePacket handle start).1.handlePackets handle ps).2
        ((s.handlePacket handle start).1.handlePackets handle ps).1 ↔
      start.start.batchSize.toNat = 1 := by
  have hcount := h.count
  have hpos := h.pos
  constructor
  · intro hassembled
    by_contra hone
    obtain ⟨step, hstep, hkey, hrej⟩ := rejected_of_two handle
      (s := (s.handlePacket handle start).1) h.jobs (by omega)
    exact hassembled.accepted step hstep hkey hrej
  · intro hone
    obtain ⟨q, hq⟩ := List.length_eq_one_iff.mp (hcount.trans hone)
    exact assembled_of_one handle (h.jobs q (by simp [hq])) hq
      (handlePacket_of_start handle h.isStart h.notPending) rfl (h.toNat_batchSize.trans hone)

/-- A batch of one job is put together, with a job of another key in between. -/
theorem assembled_one :
    Assembled 1
      (((idleServer.handlePacket succeeds (startPacket 7 1 5 1)).1.handlePackets succeeds
        [jobPacket 8 2 10 [], jobPacket 7 1 10 [3]]).2)
      (((idleServer.handlePacket succeeds (startPacket 7 1 5 1)).1.handlePackets succeeds
        [jobPacket 8 2 10 [], jobPacket 7 1 10 [3]]).1) :=
  have h : Announces idleServer (startPacket 7 1 5 1) [jobPacket 8 2 10 [], jobPacket 7 1 10 [3]] :=
    ⟨rfl, by decide, rfl, by decide, by decide, by decide, rfl⟩
  (assembled_iff_one succeeds h).mpr rfl

/-- Of a batch of two the second job is turned away. -/
theorem not_assembled_two :
    Announces idleServer (startPacket 7 1 5 2) [jobPacket 7 1 10 [], jobPacket 7 1 11 []] ∧
      ¬ Assembled 1
        (((idleServer.handlePacket succeeds (startPacket 7 1 5 2)).1.handlePackets succeeds
          [jobPacket 7 1 10 [], jobPacket 7 1 11 []]).2)
        (((idleServer.handlePacket succeeds (startPacket 7 1 5 2)).1.handlePackets succeeds
          [jobPacket 7 1 10 [], jobPacket 7 1 11 []]).1) := by
  refine ⟨⟨rfl, by decide, rfl, by decide, by decide, by decide, rfl⟩, fun h => ?_⟩
  exact h.accepted (jobPacket 7 1 11 [], [.invalidJob 7 11]) (by decide) (by decide)
    ⟨7, 11, by decide⟩

end DBServer

end DdingGameServer
