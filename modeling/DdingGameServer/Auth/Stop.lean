import DdingGameServer.Auth.Wakeup
import DdingGameServer.Common.Progress
import DdingGameServer.Common.Tally
/-!
# DB threads — stopping them

`StopThreads` signals one event, which the worker it wakes resets, and joins all workers. Each
worker signals the event again before it ends, so the signal gets to the next one. Whatever the
workers are at when it comes, and in whatever order they go on, they take a bounded number of steps;
where none is left, all have ended, or one has crashed on an empty pool. The jobs that were ended by
then are those the workers had and those they took off the list, each once; the others stay there.
-/

namespace DdingGameServer

namespace Auth

open DBServer

universe w

variable {Handle : Type w} {s s' t : DBThreads Handle} {es : List DBThreadEvent}
  {w w' : Worker Handle} {i : ℕ}

/-! ## What is left to do -/

/-- What a worker has to do at most before it waits, and to end. -/
def Worker.todo : Worker Handle → ℕ
  | .waiting => 1
  | .handling => 2
  | .calling _ => 4
  | .working _ _ => 3
  | .stopped => 0

/-- The job a worker has. -/
def Worker.job : Worker Handle → Option DBJobObject
  | .calling dbJob | .working dbJob _ => some dbJob
  | _ => none

/-- It has one, and no connection for it yet. -/
def Worker.short : Worker Handle → ℕ
  | .calling _ => 1
  | _ => 0

namespace DBThreads

/-- What the list and the event can make a worker do. -/
def offered (s : DBThreads Handle) : ℕ := 3 * s.dbJobList.length + if s.dbJobEvent then 2 else 0

/-- **What the workers have to do at most.** -/
def todo (s : DBThreads Handle) : ℕ := s.offered + tally Worker.todo s.workerThreads

/-- The jobs that the workers have. -/
def held (s : DBThreads Handle) : List DBJobObject := s.workerThreads.filterMap Worker.job

/-- The jobs that need a connection. -/
def wanting (s : DBThreads Handle) : ℕ := s.dbJobList.length + tally Worker.short s.workerThreads

/-- **Each job is ended once, or kept**: of the jobs that the workers had in `s` and those they took
off the list since, each was ended once, or a worker has it. -/
def JobsKept (s s' : DBThreads Handle) : Prop :=
  ∃ taken ended, s.dbJobList = taken ++ s'.dbJobList ∧ s'.ended = s.ended ++ ended ∧
    (ended.map Ended.dbJob ++ s'.held).Perm (s.held ++ taken)

end DBThreads

/-- The step of a worker. -/
def DBThreadEvent.ofWorker : DBThreadEvent → Prop
  | .advance _ => True
  | _ => False

/-! ## One step -/

/-- **A worker's step**: it takes some of what is to do away, what it takes off the list and what it
ends is the job it has, and it crashes only for want of a connection. -/
structure Proceeds (s : DBThreads Handle) (w : Worker Handle) (t : DBThreads Handle)
    (w' : Worker Handle) : Prop where
  workers : t.workerThreads = s.workerThreads
  stopEvent : s.stopEvent = true → t.stopEvent = true
  less : t.crashed = true ∨ t.offered + w'.todo < s.offered + w.todo
  jobs : ∃ taken ended, s.dbJobList = taken ++ t.dbJobList ∧ t.ended = s.ended ++ ended ∧
    ended.map Ended.dbJob ++ w'.job.toList = w.job.toList ++ taken
  crashed : t.crashed = true → s.crashed = true ∨ s.connectionList = [] ∧ w.short = 1
  connections : t.crashed = false → s.connectionList.length + t.dbJobList.length + w'.short ≤
    t.connectionList.length + s.dbJobList.length + w.short

/-- A step that leaves the list and what was ended alone, and the worker with the job it has. -/
theorem jobs_of_eq (hlist : t.dbJobList = s.dbJobList) (hended : t.ended = s.ended)
    (hjob : w'.job = w.job) :
    ∃ taken ended, s.dbJobList = taken ++ t.dbJobList ∧ t.ended = s.ended ++ ended ∧
      ended.map Ended.dbJob ++ w'.job.toList = w.job.toList ++ taken :=
  ⟨[], [], by rw [hlist, List.nil_append], by rw [hended, List.append_nil],
    by rw [hjob, List.map_nil, List.nil_append, List.append_nil]⟩

theorem proceeds (h : s.advance w = some (t, w')) : Proceeds s w t w' := by
  cases w with
  | waiting =>
    simp only [DBThreads.advance] at h
    split at h
    · rename_i hevent
      obtain ⟨rfl, rfl⟩ := Prod.mk.inj (Option.some.inj h)
      refine ⟨rfl, id, .inr ?_, jobs_of_eq rfl rfl rfl, .inl, fun _ => Nat.le_refl _⟩
      simp [DBThreads.offered, Worker.todo, hevent]
    · split at h
      · obtain ⟨rfl, rfl⟩ := Prod.mk.inj (Option.some.inj h)
        exact ⟨rfl, fun _ => rfl, .inr (Nat.lt_succ_self _), jobs_of_eq rfl rfl rfl, .inl,
          fun _ => Nat.le_refl _⟩
      · cases h
  | handling =>
    cases hjobs : s.dbJobList with
    | nil =>
      simp only [DBThreads.advance, hjobs] at h
      obtain ⟨rfl, rfl⟩ := Prod.mk.inj (Option.some.inj h)
      exact ⟨rfl, id, .inr (Nat.lt_succ_self _), jobs_of_eq rfl rfl rfl, .inl,
        fun _ => Nat.le_refl _⟩
    | cons job dbJobList =>
      simp only [DBThreads.advance, hjobs] at h
      obtain ⟨rfl, rfl⟩ := Prod.mk.inj (Option.some.inj h)
      refine ⟨rfl, id, .inr ?_, ⟨[job], [], hjobs, (List.append_nil _).symm, rfl⟩, .inl,
        fun _ => ?_⟩
      · simp only [DBThreads.offered, Worker.todo, hjobs, List.length_cons]
        omega
      · simp only [Worker.short, hjobs, List.length_cons]
        omega
  | calling dbJob =>
    cases hpool : s.connectionList with
    | nil =>
      simp only [DBThreads.advance, hpool] at h
      obtain ⟨rfl, rfl⟩ := Prod.mk.inj (Option.some.inj h)
      exact ⟨rfl, id, .inl rfl, jobs_of_eq rfl rfl rfl, fun _ => .inr ⟨hpool, rfl⟩,
        fun hc => by cases hc⟩
    | cons conn connectionList =>
      simp only [DBThreads.advance, hpool] at h
      obtain ⟨rfl, rfl⟩ := Prod.mk.inj (Option.some.inj h)
      refine ⟨rfl, id, .inr (Nat.lt_succ_self _), jobs_of_eq rfl rfl rfl, .inl, fun _ => ?_⟩
      simp [Worker.short, hpool]
      omega
  | working dbJob conn =>
    obtain ⟨rfl, rfl⟩ := Prod.mk.inj (Option.some.inj h)
    exact ⟨rfl, id, .inr (Nat.lt_succ_self _), ⟨[], [_], rfl, rfl, rfl⟩, .inl,
      fun _ => Nat.le_refl _⟩
  | stopped => cases h

namespace DBThreads

theorem JobsKept.refl : JobsKept s s :=
  ⟨[], [], rfl, (List.append_nil _).symm, by rw [List.append_nil]; exact .refl _⟩

/-- What was taken and ended in two stretches was in both together. -/
theorem JobsKept.trans (h : JobsKept s t) (h' : JobsKept t s') : JobsKept s s' := by
  obtain ⟨taken, ended, hlist, hended, hperm⟩ := h
  obtain ⟨taken', ended', hlist', hended', hperm'⟩ := h'
  refine ⟨taken ++ taken', ended ++ ended', ?_, ?_, ?_⟩
  · rw [hlist, hlist', List.append_assoc]
  · rw [hended', hended, List.append_assoc]
  · have hfirst := hperm'.append_left (ended.map Ended.dbJob)
    rw [← List.append_assoc, ← List.map_append, ← List.append_assoc] at hfirst
    rw [← List.append_assoc]
    exact hfirst.trans (hperm.append_right taken')

end DBThreads

/-- A step of one worker keeps the jobs. -/
theorem Proceeds.jobsKept (h : Proceeds s w t w') (hw : s.workerThreads[i]? = some w) :
    s.JobsKept { t with workerThreads := s.workerThreads.set i w' } := by
  obtain ⟨taken, ended, hlist, hended, hjobs⟩ := h.jobs
  refine ⟨taken, ended, hlist, hended, ?_⟩
  have hset : ((s.workerThreads.set i w').filterMap Worker.job ++ w.job.toList).Perm
      (s.held ++ w'.job.toList) := (replaces_filterMap_set hw w').perm
  -- both sides are compared with the job that the worker had beside them
  refine (List.perm_append_right_iff w.job.toList).mp ?_
  have hended : (ended.map Ended.dbJob ++ (s.held ++ w'.job.toList)).Perm
      (s.held ++ (w.job.toList ++ taken)) := by
    rw [← hjobs, ← List.append_assoc, ← List.append_assoc]
    exact List.perm_append_comm.append_right _
  have hmoved : (s.held ++ (w.job.toList ++ taken)).Perm (s.held ++ (taken ++ w.job.toList)) :=
    List.perm_append_comm.append_left s.held
  rw [List.append_assoc, List.append_assoc]
  exact (hset.append_left _).trans (hended.trans hmoved)

/-- What holds of a state before and after steps of the workers. -/
structure Proceeded (s s' : DBThreads Handle) : Prop where
  stopEvent : s.stopEvent = true → s'.stopEvent = true
  jobs : s.JobsKept s'
  supplied : s.crashed = false → s.wanting ≤ s.connectionList.length →
    s'.crashed = false ∧ s'.wanting ≤ s'.connectionList.length

theorem Proceeded.refl : Proceeded s s := ⟨id, .refl, fun hc hs => ⟨hc, hs⟩⟩

theorem Proceeded.trans (h : Proceeded s t) (h' : Proceeded t s') : Proceeded s s' :=
  ⟨fun hs => h'.stopEvent (h.stopEvent hs), h.jobs.trans h'.jobs,
    fun hc hs => (h.supplied hc hs).elim h'.supplied⟩

/-- **Every step of a worker gets on.** -/
theorem proceeded_of_advance (hs : dbThreads.step s (.advance i) = some s') :
    Proceeded s s' ∧ (s'.crashed = true ∨ s'.todo < s.todo) := by
  obtain ⟨w, t, w', hw, hadv, rfl⟩ := exists_advance hs
  have h := proceeds hadv
  have htodo := tally_set (f := Worker.todo) (b := w') hw
  have hshort := tally_set (f := Worker.short) (b := w') hw
  refine ⟨⟨h.stopEvent, h.jobsKept hw, fun hc hle => ?_⟩, h.less.imp_right fun hlt => ?_⟩
  · simp only [DBThreads.wanting] at hle ⊢
    have hcrashed : t.crashed = false := by
      cases hct : t.crashed with
      | false => rfl
      | true =>
        rcases h.crashed hct with hcs | ⟨hnil, hone⟩
        · rw [hc] at hcs
          cases hcs
        · have hle' := le_tally (f := Worker.short) hw
          rw [hnil, List.length_nil] at hle
          omega
    have := h.connections hcrashed
    exact ⟨hcrashed, by omega⟩
  · simp only [DBThreads.todo, DBThreads.offered] at hlt ⊢
    omega

/-! ## Over a run -/

theorem proceeded_of_run (hes : ∀ e ∈ es, e.ofWorker) (hr : dbThreads.run s es = some s') :
    Proceeded s s' := by
  have hmeets : dbThreads.Meets (fun _ e => e.ofWorker) s es := System.meets_of_forall hes
  refine hmeets.invariant (P := Proceeded s) (fun u e u' hu he hs => ?_) hr .refl
  cases e with
  | advance i => exact hu.trans (proceeded_of_advance hs).1
  | insertDBJob _ | setDBJobEvent | stopThreads => exact he.elim

/-- How many steps the workers can take at most: none after a crash. -/
def DBThreads.stepsLeft (s : DBThreads Handle) : ℕ := if s.crashed then 0 else s.todo + 1

theorem stepsLeft_lt_of_step {e : DBThreadEvent} (he : e.ofWorker)
    (hs : dbThreads.step s e = some s') : s'.stepsLeft < s.stepsLeft := by
  have hcrashed : ¬ s.crashed = true := by rw [step_of_not_crashed hs]; simp
  cases e with
  | insertDBJob _ | setDBJobEvent | stopThreads => exact he.elim
  | advance i =>
    rw [DBThreads.stepsLeft, DBThreads.stepsLeft, if_neg hcrashed]
    split
    · exact Nat.succ_pos _
    · rename_i hcrashed'
      exact Nat.succ_lt_succ ((proceeded_of_advance hs).2.resolve_left hcrashed')

/-- **The workers come to an end**, in any order of their steps. -/
theorem length_le_of_run (hes : ∀ e ∈ es, e.ofWorker) (hr : dbThreads.run s es = some s') :
    es.length ≤ s.todo + 1 := by
  have hle := System.length_le_of_measure DBThreads.stepsLeft
    (fun _ _ _ _ he hs => ⟨trivial, stepsLeft_lt_of_step he hs⟩) trivial hes hr
  refine Nat.le_trans (Nat.le_trans (Nat.le_add_right _ _) hle) ?_
  unfold DBThreads.stepsLeft
  split
  · exact Nat.zero_le _
  · exact Nat.le_refl _

/-- **Where no worker can go on** after the signal, each has ended, or one has crashed. -/
theorem stopped_of_stuck (hstop : s.stopEvent = true) (hcrashed : s.crashed = false)
    (hstuck : ∀ i, dbThreads.step s (.advance i) = none) : ∀ w ∈ s.workerThreads, w = .stopped := by
  intro w hw
  obtain ⟨i, hi⟩ := List.mem_iff_getElem?.mp hw
  have hnone := hstuck i
  simp only [dbThreads, hcrashed, hi] at hnone
  have hadv : s.advance w = none := by simpa using hnone
  cases w with
  | stopped => rfl
  | waiting =>
    simp only [DBThreads.advance, hstop] at hadv
    split at hadv <;> cases hadv
  | handling | calling _ =>
    simp only [DBThreads.advance] at hadv
    split at hadv <;> cases hadv
  | working _ _ => cases hadv

/-- A worker that has ended has no job. -/
theorem held_of_stopped (h : ∀ w ∈ s.workerThreads, w = .stopped) : s.held = [] :=
  List.filterMap_eq_nil_iff.mpr fun w hw => by rw [h w hw]; rfl

/-- **Stopping the DB threads**, from every state in which `StopThreads` has signalled: however the
workers go on, they take no more than so many steps, and of the jobs that they have and those they
take off the list each is ended once or kept. Where none can go on, a worker has crashed or all have
ended; then the jobs ended since are those, in some order, and the list holds the others as they
stood. And no worker crashes where the pool has a connection for each job. -/
theorem stopThreads_of_run (hstop : s.stopEvent = true) (hes : ∀ e ∈ es, e.ofWorker)
    (hr : dbThreads.run s es = some s') :
    es.length ≤ s.todo + 1 ∧ s.JobsKept s' ∧
    ((∀ i, dbThreads.step s' (.advance i) = none) → s'.crashed = true ∨
      (∀ w ∈ s'.workerThreads, w = .stopped) ∧
        ∃ taken ended, s.dbJobList = taken ++ s'.dbJobList ∧ s'.ended = s.ended ++ ended ∧
          (ended.map Ended.dbJob).Perm (s.held ++ taken)) ∧
    (s.crashed = false → s.wanting ≤ s.connectionList.length → s'.crashed = false) := by
  have h := proceeded_of_run hes hr
  refine ⟨length_le_of_run hes hr, h.jobs, fun hstuck => ?_, fun hc hle => (h.supplied hc hle).1⟩
  cases hcrashed : s'.crashed with
  | true => exact .inl rfl
  | false =>
    have hstopped := stopped_of_stuck (h.stopEvent hstop) hcrashed hstuck
    obtain ⟨taken, ended, hlist, hended, hperm⟩ := h.jobs
    rw [held_of_stopped hstopped, List.append_nil] at hperm
    exact .inr ⟨hstopped, taken, ended, hlist, hended, hperm⟩

/-- Two workers, one of them woken for one of two jobs: the signal comes while it is at it. -/
theorem stopThreads_two : ∃ s s' : DBThreads ℕ, dbThreads.run (.start [⟨0, 1⟩, ⟨1, 2⟩] 2)
      [.insertDBJob (sampleJob "a"), .insertDBJob (sampleJob "b"), .setDBJobEvent, .advance 0,
        .advance 0, .stopThreads] = some s ∧
    dbThreads.run s [.advance 1, .advance 0, .advance 0] = some s' ∧
    s.held = [sampleJob "a"] ∧ s'.workerThreads = [.handling, .stopped] ∧ s.JobsKept s' ∧
    s'.crashed = false := by
  obtain ⟨s, hs, ⟨hstop, hcrashed, hle⟩, hheld, s', hs', hworkers⟩ : ∃ s : DBThreads ℕ,
      dbThreads.run (.start [⟨0, 1⟩, ⟨1, 2⟩] 2) [.insertDBJob (sampleJob "a"),
        .insertDBJob (sampleJob "b"), .setDBJobEvent, .advance 0, .advance 0, .stopThreads] =
          some s ∧
      (s.stopEvent = true ∧ s.crashed = false ∧ s.wanting ≤ s.connectionList.length) ∧
      s.held = [sampleJob "a"] ∧
      ∃ s', dbThreads.run s [.advance 1, .advance 0, .advance 0] = some s' ∧
        s'.workerThreads = [.handling, .stopped] := by
    refine ⟨_, rfl, ⟨rfl, rfl, ?_⟩, rfl, _, rfl, rfl⟩
    decide
  obtain ⟨-, hkept, -, hnot⟩ :=
    stopThreads_of_run hstop (by simp [DBThreadEvent.ofWorker]) hs'
  exact ⟨s, s', hs, hs', hheld, hworkers, hkept, hnot hcrashed hle⟩

end Auth

end DdingGameServer
