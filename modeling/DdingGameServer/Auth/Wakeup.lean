import DdingGameServer.Auth.Threads
/-!
# DB threads — jobs nobody is woken for

A worker of `AuthDBThreadManager` takes jobs until it finds `dbJobList` empty, and then blocks until
one of two events is signalled. `InsertDBJob` signals none, where `Logger::WriteLog` signals its own
after each push. So a job is taken only if somebody is still going to look at the list when it is
inserted (`remembered_iff`); and as nothing else signals the event either, no job ever is.
-/

namespace DdingGameServer

namespace Auth

open DBServer

universe w

variable {Handle : Type w} {s s' t : DBThreads Handle} {e : DBThreadEvent}
  {es : List DBThreadEvent} {w w' : Worker Handle} {n i : ℕ}
  {connectionList : List (DBConnection Handle)}

/-- The worker is in `WaitForMultipleObjects`. -/
def Worker.blocked : Worker Handle → Bool
  | .waiting => true
  | _ => false

/-- **Nobody will look at the list**: every worker is blocked in its wait, and neither event is
signalled. -/
structure Asleep (s : DBThreads Handle) : Prop where
  blocked : ∀ w ∈ s.workerThreads, w.blocked = true
  dbJobEvent : s.dbJobEvent = false
  stopEvent : s.stopEvent = false

instance (s : DBThreads Handle) : Decidable (Asleep s) :=
  decidable_of_iff ((∀ w ∈ s.workerThreads, w.blocked = true) ∧ s.dbJobEvent = false ∧
    s.stopEvent = false)
    ⟨fun h => ⟨h.1, h.2.1, h.2.2⟩, fun h => ⟨h.blocked, h.dbJobEvent, h.stopEvent⟩⟩

/-- **No job is forgotten.** -/
def Remembered (s : DBThreads Handle) : Prop := Asleep s → s.dbJobList = []

/-- A job is inserted only where somebody will look at the list. -/
def InsertsAwake (s : DBThreads Handle) : DBThreadEvent → Prop
  | .insertDBJob _ => ¬ Asleep s
  | .setDBJobEvent => True
  | .stopThreads => True
  | .advance _ => True

instance (s : DBThreads Handle) (e : DBThreadEvent) : Decidable (InsertsAwake s e) :=
  match e with
  | .insertDBJob _ => inferInstanceAs (Decidable (¬ Asleep s))
  | .setDBJobEvent => .isTrue trivial
  | .stopThreads => .isTrue trivial
  | .advance _ => .isTrue trivial

/-- The call is `InsertDBJob`. -/
def DBThreadEvent.inserts : DBThreadEvent → Bool
  | .insertDBJob _ => true
  | _ => false

/-! ## One step -/

/-- **A worker that moves does not block in front of a job**: it goes back to its wait only where it
has found the list empty. -/
theorem blocked_of_advance (h : s.advance w = some (t, w')) (hblocked : w'.blocked = true) :
    t.dbJobList = [] := by
  cases w with
  | waiting =>
    simp only [DBThreads.advance] at h
    split at h
    · obtain ⟨rfl, rfl⟩ := Prod.mk.inj (Option.some.inj h)
      cases hblocked
    · split at h
      · obtain ⟨rfl, rfl⟩ := Prod.mk.inj (Option.some.inj h)
        cases hblocked
      · cases h
  | handling =>
    cases hjobs : s.dbJobList with
    | nil =>
      simp only [DBThreads.advance, hjobs] at h
      obtain ⟨rfl, rfl⟩ := Prod.mk.inj (Option.some.inj h)
      exact hjobs
    | cons job dbJobList =>
      simp only [DBThreads.advance, hjobs] at h
      obtain ⟨rfl, rfl⟩ := Prod.mk.inj (Option.some.inj h)
      cases hblocked
  | calling dbJob =>
    cases hpool : s.connectionList with
    | nil =>
      simp only [DBThreads.advance, hpool] at h
      obtain ⟨rfl, rfl⟩ := Prod.mk.inj (Option.some.inj h)
      cases hblocked
    | cons conn connectionList =>
      simp only [DBThreads.advance, hpool] at h
      obtain ⟨rfl, rfl⟩ := Prod.mk.inj (Option.some.inj h)
      cases hblocked
  | working dbJob conn =>
    obtain ⟨rfl, rfl⟩ := Prod.mk.inj (Option.some.inj h)
    cases hblocked
  | stopped => cases h

/-- **A blocked worker moves only where an event is signalled.** -/
theorem advance_eq_none (h : Asleep s) (hw : w ∈ s.workerThreads) : s.advance w = none := by
  have hblocked := h.blocked w hw
  cases w with
  | waiting => simp [DBThreads.advance, h.dbJobEvent, h.stopEvent]
  | handling | calling _ | working _ _ | stopped => cases hblocked

/-- What is enabled at a state that has not crashed. -/
theorem step_of_not_crashed (hs : dbThreads.step s e = some s') : s.crashed = false := by
  cases hcrashed : s.crashed with
  | false => rfl
  | true => simp [dbThreads, hcrashed] at hs

/-- A worker that advances, one of those there are. -/
theorem exists_advance (hs : dbThreads.step s (.advance i) = some s') :
    ∃ w t w', s.workerThreads[i]? = some w ∧ s.advance w = some (t, w') ∧
      s' = { t with workerThreads := s.workerThreads.set i w' } := by
  have hcrashed := step_of_not_crashed hs
  simp only [dbThreads, hcrashed] at hs
  obtain ⟨w, hi, hrest⟩ := Option.bind_eq_some_iff.mp hs
  obtain ⟨⟨t, w'⟩, hadv, rfl⟩ := Option.map_eq_some_iff.mp hrest
  exact ⟨w, t, w', hi, hadv, rfl⟩

/-- **Only an insertion while everybody sleeps is forgotten**, and it always is. -/
theorem remembered_step_iff (hs : dbThreads.step s e = some s') :
    Remembered s' ↔ InsertsAwake s e := by
  have hcrashed := step_of_not_crashed hs
  cases e with
  | insertDBJob dbJob =>
    simp only [dbThreads, hcrashed] at hs
    obtain rfl := Option.some.inj hs
    constructor
    · intro h hasleep
      have hnil := h ⟨hasleep.blocked, hasleep.dbJobEvent, hasleep.stopEvent⟩
      exact List.append_ne_nil_of_right_ne_nil _ (List.cons_ne_nil _ _) hnil
    · intro h hasleep
      exact absurd ⟨hasleep.blocked, hasleep.dbJobEvent, hasleep.stopEvent⟩ h
  | setDBJobEvent =>
    simp only [dbThreads, hcrashed] at hs
    obtain rfl := Option.some.inj hs
    refine iff_of_true (fun hasleep => ?_) trivial
    cases hasleep.dbJobEvent
  | stopThreads =>
    simp only [dbThreads, hcrashed] at hs
    obtain rfl := Option.some.inj hs
    refine iff_of_true (fun hasleep => ?_) trivial
    cases hasleep.stopEvent
  | advance i =>
    obtain ⟨w, t, w', hi, hadv, rfl⟩ := exists_advance hs
    refine iff_of_true (fun hasleep => ?_) trivial
    have hlt : i < s.workerThreads.length := (List.getElem?_eq_some_iff.mp hi).1
    have hmem : w' ∈ s.workerThreads.set i w' := List.mem_set hlt w'
    have hnil : t.dbJobList = [] := blocked_of_advance hadv (hasleep.blocked w' hmem)
    exact hnil

/-- Workers that sleep go on sleeping where nobody sets an event. -/
theorem Asleep.step (h : Asleep s) (hevent : e ≠ .setDBJobEvent ∧ e ≠ .stopThreads)
    (hs : dbThreads.step s e = some s') : Asleep s' := by
  have hcrashed := step_of_not_crashed hs
  cases e with
  | insertDBJob dbJob =>
    simp only [dbThreads, hcrashed] at hs
    obtain rfl := Option.some.inj hs
    exact ⟨h.blocked, h.dbJobEvent, h.stopEvent⟩
  | setDBJobEvent => exact absurd rfl hevent.1
  | stopThreads => exact absurd rfl hevent.2
  | advance i =>
    obtain ⟨w, t, w', hi, hadv, -⟩ := exists_advance hs
    rw [advance_eq_none h (List.mem_of_getElem? hi)] at hadv
    cases hadv

theorem asleep_start : Asleep (DBThreads.start connectionList n) := by
  refine ⟨fun w hw => ?_, rfl, rfl⟩
  rw [List.eq_of_mem_replicate hw]
  rfl

/-! ## Over a run -/

/-- A run in which nobody sets an event inserts awake only if it inserts nothing. -/
theorem meets_insertsAwake_iff (hes : ∀ e ∈ es, e ≠ .setDBJobEvent ∧ e ≠ .stopThreads)
    (hr : dbThreads.run s es = some s') (hasleep : Asleep s) :
    dbThreads.Meets InsertsAwake s es ↔ ∀ e ∈ es, e.inserts = false := by
  have hforall : dbThreads.Meets (fun _ e => e ≠ .setDBJobEvent ∧ e ≠ .stopThreads) s es :=
    System.meets_of_forall hes
  have hcongr : dbThreads.Meets InsertsAwake s es ↔
      dbThreads.Meets (fun _ e => e.inserts = false) s es := by
    refine hforall.congr (P := Asleep) (fun t e t' ht he hs => ⟨ht.step he hs, ?_⟩) hr hasleep
    cases e with
    | insertDBJob dbJob => exact iff_of_false (fun hnot => hnot ht) (by simp [DBThreadEvent.inserts])
    | setDBJobEvent | stopThreads | advance _ => exact iff_of_true trivial rfl
  rw [hcongr, System.meets_forall_iff hr]

/-- **No job is forgotten exactly where each is inserted while somebody is still going to look at the
list**, in every run of any number of workers; and where nobody sets an event, as in the code before
`StopThreads`, exactly where no job is inserted at all. -/
theorem remembered_iff (hr : dbThreads.run (.start connectionList n) es = some s) :
    (dbThreads.Throughout Remembered (.start connectionList n) es ↔
      dbThreads.Meets InsertsAwake (.start connectionList n) es) ∧
    ((∀ e ∈ es, e ≠ .setDBJobEvent ∧ e ≠ .stopThreads) →
      (dbThreads.Throughout Remembered (.start connectionList n) es ↔
        ∀ e ∈ es, e.inserts = false)) := by
  have hiff : dbThreads.Throughout Remembered (.start connectionList n) es ↔
      dbThreads.Meets InsertsAwake (.start connectionList n) es :=
    System.throughout_iff_meets (I := fun _ => True) (fun _ _ _ _ _ => trivial)
      (fun _ _ _ _ _ hs => remembered_step_iff hs) hr trivial fun _ => rfl
  exact ⟨hiff, fun hes => hiff.trans (meets_insertsAwake_iff hes hr asleep_start)⟩

/-- A job inserted for a worker that is on its way to the list is taken and ended. -/
theorem remembered_awake : ∃ s, dbThreads.run (.start [⟨0, 1⟩] 1)
      [.setDBJobEvent, .advance 0, .insertDBJob (sampleJob "a"), .advance 0, .advance 0, .advance 0,
        .advance 0] = some s ∧
    (Asleep s ∧ s.ended.map Ended.dbJob = [sampleJob "a"]) ∧
    dbThreads.Throughout Remembered (.start [⟨0, 1⟩] 1)
      [.setDBJobEvent, .advance 0, .insertDBJob (sampleJob "a"), .advance 0, .advance 0, .advance 0,
        .advance 0] := by
  obtain ⟨s, hmeets, hr, hf⟩ := System.exists_run dbThreads
    [.setDBJobEvent, .advance 0, .insertDBJob (sampleJob "a"), .advance 0, .advance 0, .advance 0,
      .advance 0]
    (c := fun (s : DBThreads ℕ) e => decide (InsertsAwake s e))
    (f := fun s => decide (Asleep s ∧ s.ended.map Ended.dbJob = [sampleJob "a"]))
    (s := .start [⟨0, 1⟩] 1) (by decide +kernel)
  exact ⟨s, hr, of_decide_eq_true hf,
    (remembered_iff hr).1.mpr (hmeets.mono fun _ _ => of_decide_eq_true)⟩

/-- **One worker and one job**: it is inserted and nobody is woken. -/
theorem not_remembered_insert : ∃ s : DBThreads ℕ, dbThreads.run (.start [⟨0, 1⟩] 1)
      [.insertDBJob (sampleJob "a")] = some s ∧
    Asleep s ∧ s.dbJobList = [sampleJob "a"] ∧
    ¬ dbThreads.Throughout Remembered (.start [⟨0, 1⟩] 1) [.insertDBJob (sampleJob "a")] := by
  have hasleep : Asleep (DBThreads.start [(⟨0, 1⟩ : DBConnection ℕ)] 1) := asleep_start
  refine ⟨_, rfl, ⟨hasleep.blocked, rfl, rfl⟩, rfl, fun h => ?_⟩
  have hlast := h.2 _ rfl ⟨hasleep.blocked, rfl, rfl⟩
  cases hlast

end Auth

end DdingGameServer
