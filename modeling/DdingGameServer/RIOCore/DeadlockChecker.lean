import DdingGameServer.Common.EntryMap
import DdingGameServer.Common.System
import Mathlib.Algebra.Order.Ring.Nat
import Mathlib.Data.Fintype.Basic
import Mathlib.Tactic.Common
/-!
# DeadlockChecker — a check that is not compiled in

Every worker registers a functor that returns the tick of its last turn, and one thread is to go
through the functors every two seconds and crash the process where a tick is too old. All of that
stands under `#if USE_DEDALOCK_CHECKER`. `BuildConfig.h` defines the switch as 1, but
`DeadlockChecker.cpp` does not include it, and there the switch is 0: `RegisterCheckThread` says yes
and keeps nothing, and `CheckDeadlockThread` returns at once. So nothing is ever crashed, and no
late thread is found (`spares_iff`).

The switch is a parameter here, `useDedalockChecker` its value in that file. With 1 it does not even
compile, as it takes a `std::lock_guard<std::mutex>` of a `std::shared_mutex`; read as the lock that
is meant, the check would miss no late thread, but it subtracts the 20 seconds from `now` and not
the tick from `now`: in the first 20 seconds of the tick count the difference wraps, and every tick
is below it (`crashes_iff_of_healthy`).

That a check is due is one step, with the tick at which it is; what `CheckDeadlockThread` does then
is another: the workers go on in between.
-/

namespace DdingGameServer

namespace RIOCore

universe u

/-- `USE_DEDALOCK_CHECKER`, as `DeadlockChecker.cpp` finds it: `#if` takes a name that is not
defined for 0. -/
def useDedalockChecker : Bool := false

/-- 20 seconds. -/
def maxCheckCount : UInt16 := 20000

/-- `DeadlockChecker`, what it reads of the workers, and the clock. -/
structure DeadlockChecker (ThreadId Worker : Type u) where
  /-- What `GetTickCount64` gives. -/
  tickCount : UInt64
  /-- `tickSet.nowTick` of each worker. -/
  nowTick : Worker → UInt64
  /-- The functor of a thread returns the `nowTick` of one worker. -/
  checkerMap : EntryMap ThreadId Worker
  /-- The tick at which a check is due, `now` in `CheckDeadlockThread`. -/
  now : Option UInt64
  crashed : Bool
  /-- History: the threads that have called `RegisterCheckThread`, and not deregistered. -/
  registered : EntryMap ThreadId Worker

inductive DeadlockEvent (ThreadId Worker : Type u)
  | elapse (ticks : UInt64)
  | registerCheckThread (threadId : ThreadId) (worker : Worker)
  | deregisteredCheckThread (threadId : ThreadId)
  /-- A worker sets its `nowTick`. -/
  | update (worker : Worker)
  /-- `checkSleepTime` is over: a check is due. -/
  | due
  /-- `CheckDeadlockThread` makes it, if it is there. -/
  | check

variable {ThreadId Worker : Type u}

namespace DeadlockChecker

/-- Whether the check of `CheckDeadlockThread` calls `Crash`. -/
def crashes (d : DeadlockChecker ThreadId Worker) (now : UInt64) : Bool :=
  d.checkerMap.anyValue fun worker =>
    let threadUpdatedTick := d.nowTick worker
    -- wraps where `now` is below the 20 seconds
    !decide (threadUpdatedTick ≥ now - maxCheckCount.toUInt64)

variable [DecidableEq ThreadId] [DecidableEq Worker]

/-- `RegisterCheckThread`: the map it leaves, and its answer. -/
def registerCheckThread (use : Bool) (d : DeadlockChecker ThreadId Worker) (threadId : ThreadId)
    (worker : Worker) : EntryMap ThreadId Worker × Bool :=
  if use then
    -- the map keeps the functor it has, and the answer says so
    if threadId ∈ d.checkerMap then (d.checkerMap, false)
    else (d.checkerMap.insertNew threadId worker, true)
  else (d.checkerMap, true)

/-- `DeregisteredCheckThread`. -/
def deregisteredCheckThread (use : Bool) (d : DeadlockChecker ThreadId Worker)
    (threadId : ThreadId) : EntryMap ThreadId Worker :=
  if use then d.checkerMap.erase threadId else d.checkerMap

/-- What `CheckDeadlockThread` does where a check is due: whether it crashes the process. Without
the switch it has returned. -/
def checkDeadlockThread (use : Bool) (d : DeadlockChecker ThreadId Worker) (now : UInt64) : Bool :=
  use && d.crashes now

/-- One step. A process that has crashed takes none. -/
def step (use : Bool) (d : DeadlockChecker ThreadId Worker) :
    DeadlockEvent ThreadId Worker → Option (DeadlockChecker ThreadId Worker)
  | .elapse ticks =>
    if d.crashed then none else some { d with tickCount := d.tickCount + ticks }
  | .registerCheckThread threadId worker =>
    if d.crashed then none
    else some { d with
      checkerMap := (d.registerCheckThread use threadId worker).1
      registered := d.registered.insertNew threadId worker }
  | .deregisteredCheckThread threadId =>
    if d.crashed then none
    else some { d with
      checkerMap := d.deregisteredCheckThread use threadId
      registered := d.registered.erase threadId }
  | .update worker =>
    if d.crashed then none
    else some { d with nowTick := Function.update d.nowTick worker d.tickCount }
  | .due =>
    if d.crashed then none
    else match d.now with
      | some _ => none
      | none => some { d with now := some d.tickCount }
  | .check =>
    if d.crashed then none
    else match d.now with
      | some now => some { d with now := none, crashed := d.checkDeadlockThread use now }
      | none => none

end DeadlockChecker

/-- **The server under the checker**, started at any tick. -/
def deadlockChecker (use : Bool) (ThreadId Worker : Type u) [DecidableEq ThreadId]
    [DecidableEq Worker] :
    System (DeadlockChecker ThreadId Worker) (DeadlockEvent ThreadId Worker) where
  Init d := d.checkerMap = ∅ ∧ d.registered = ∅ ∧ d.now = none ∧ d.crashed = false
  step d := d.step use

namespace DeadlockChecker

/-- A worker whose thread has registered. -/
def Registered [DecidableEq ThreadId] (d : DeadlockChecker ThreadId Worker) (worker : Worker) :
    Prop :=
  ∃ threadId, d.registered.lookup threadId = some worker

end DeadlockChecker

section Conditions

variable [DecidableEq ThreadId] (d : DeadlockChecker ThreadId Worker)

/-- **The threads are healthy at a check**: no registered tick is later than `now`, and none more
than 20 seconds before it. -/
def Healthy : DeadlockEvent ThreadId Worker → Prop
  | .check => ∀ now ∈ d.now, ∀ worker, d.Registered worker →
      (d.nowTick worker).toNat ≤ now.toNat ∧ now.toNat ≤ (d.nowTick worker).toNat + 20000
  | _ => True

/-- **Some thread is late at a check**: a registered tick is more than 20 seconds before `now`. -/
def Late : DeadlockEvent ThreadId Worker → Prop
  | .check => ∃ now ∈ d.now, ∃ worker, d.Registered worker ∧
      (d.nowTick worker).toNat + 20000 < now.toNat
  | _ => False

/-- At a check the clock is past its first 20 seconds, or no thread is registered. -/
def Settled : DeadlockEvent ThreadId Worker → Prop
  | .check => ∀ now ∈ d.now, 20000 ≤ now.toNat ∨ ∀ worker, ¬ d.Registered worker
  | _ => True

/-- The step crashes the process. -/
def Kills [DecidableEq Worker] (use : Bool) (e : DeadlockEvent ThreadId Worker) : Prop :=
  ∃ d', d.step use e = some d' ∧ d'.crashed = true

end Conditions

variable [DecidableEq ThreadId] {d d' : DeadlockChecker ThreadId Worker} {now : UInt64}
  {e : DeadlockEvent ThreadId Worker} {es : List (DeadlockEvent ThreadId Worker)} {use : Bool}

/-! ## One check -/

/-- The limit of a check: 20 seconds before `now`, around the end of the tick count. -/
theorem toNat_limit (now : UInt64) : (now - maxCheckCount.toUInt64).toNat =
    if 20000 ≤ now.toNat then now.toNat - 20000 else now.toNat + (2 ^ 64 - 20000) := by
  have hmax : maxCheckCount.toUInt64.toNat = 20000 := by decide
  have hlt : now.toNat < 2 ^ 64 := now.toNat_lt
  rw [UInt64.toNat_sub, hmax]
  split <;> omega

section Guarded

/-- The map holds the threads that have registered, as it does with the switch. -/
def Kept (d : DeadlockChecker ThreadId Worker) : Prop := d.checkerMap = d.registered

/-- The test of a check, by the registered ticks. -/
theorem DeadlockChecker.crashes_iff (hkept : Kept d) : d.crashes now = true ↔
    ∃ worker, d.Registered worker ∧
      (d.nowTick worker).toNat < (now - maxCheckCount.toUInt64).toNat := by
  rw [DeadlockChecker.crashes, show d.checkerMap = d.registered from hkept, EntryMap.anyValue_iff]
  simp only [Bool.not_eq_true', decide_eq_false_iff_not, ge_iff_le, UInt64.not_le,
    UInt64.lt_iff_toNat_lt]
  constructor
  · rintro ⟨threadId, worker, hlookup, hlt⟩
    exact ⟨worker, ⟨threadId, hlookup⟩, hlt⟩
  · rintro ⟨worker, ⟨threadId, hlookup⟩, hlt⟩
    exact ⟨threadId, worker, hlookup, hlt⟩

/-- **A late thread would not be missed.** -/
theorem crashes_of_late (hkept : Kept d) {worker : Worker} (hreg : d.Registered worker)
    (hlate : (d.nowTick worker).toNat + 20000 < now.toNat) : d.crashes now = true := by
  refine (DeadlockChecker.crashes_iff hkept).mpr ⟨worker, hreg, ?_⟩
  rw [toNat_limit, if_pos (by omega)]
  omega

/-- **A check of healthy threads would crash exactly in the first 20 seconds of the clock, where a
thread is registered.** -/
theorem crashes_iff_of_healthy (hkept : Kept d) (hhealthy : ∀ worker, d.Registered worker →
      (d.nowTick worker).toNat ≤ now.toNat ∧ now.toNat ≤ (d.nowTick worker).toNat + 20000) :
    d.crashes now = true ↔ now.toNat < 20000 ∧ ∃ worker, d.Registered worker := by
  rw [DeadlockChecker.crashes_iff hkept, toNat_limit]
  constructor
  · rintro ⟨worker, hreg, hlt⟩
    obtain ⟨-, hage⟩ := hhealthy worker hreg
    refine ⟨?_, worker, hreg⟩
    by_contra hpast
    rw [if_pos (Nat.not_lt.mp hpast)] at hlt
    omega
  · rintro ⟨hearly, worker, hreg⟩
    obtain ⟨hle, -⟩ := hhealthy worker hreg
    refine ⟨worker, hreg, ?_⟩
    rw [if_neg (Nat.not_le.mpr hearly)]
    omega

end Guarded

/-! ## Runs -/

variable [DecidableEq Worker]

/-- No step is taken behind a crash. -/
theorem DeadlockChecker.running_of_step (h : d.step use e = some d') : d.crashed = false := by
  cases hcrashed : d.crashed with
  | false => rfl
  | true =>
    cases e with
    | _ => simp [DeadlockChecker.step, hcrashed] at h

/-- **What a step does to the process**: a check that is compiled in may crash it, and nothing else
does. -/
theorem DeadlockChecker.crashed_step (h : d.step use e = some d') :
    d'.crashed = true ↔ e = .check ∧ ∃ now ∈ d.now, use = true ∧ d.crashes now = true := by
  have hrunning := running_of_step h
  cases e with
  | check =>
    cases hnow : d.now with
    | none => simp [DeadlockChecker.step, hrunning, hnow] at h
    | some now =>
      simp only [DeadlockChecker.step, hrunning, hnow, Bool.false_eq_true, if_false,
        Option.some.injEq] at h
      subst h
      simp [DeadlockChecker.checkDeadlockThread]
  | due =>
    cases hnow : d.now with
    | some now => simp [DeadlockChecker.step, hrunning, hnow] at h
    | none =>
      simp only [DeadlockChecker.step, hrunning, hnow, Bool.false_eq_true, if_false,
        Option.some.injEq] at h
      subst h
      simp
  | _ =>
    simp only [DeadlockChecker.step, hrunning, Bool.false_eq_true, if_false,
      Option.some.injEq] at h
    subst h
    simp

/-- With the switch, the map is kept. -/
theorem Kept.step (hkept : Kept d) (h : d.step true e = some d') : Kept d' := by
  have hrunning := DeadlockChecker.running_of_step h
  have hkept : d.checkerMap = d.registered := hkept
  cases e with
  | registerCheckThread threadId worker =>
    simp only [DeadlockChecker.step, hrunning, Bool.false_eq_true, if_false, Option.some.injEq] at h
    subst h
    show (d.registerCheckThread true threadId worker).1 = d.registered.insertNew threadId worker
    rw [DeadlockChecker.registerCheckThread, if_pos rfl, ← hkept]
    split
    · rename_i hmem
      exact (EntryMap.insertNew_of_mem hmem).symm
    · rfl
  | deregisteredCheckThread threadId =>
    simp only [DeadlockChecker.step, hrunning, Bool.false_eq_true, if_false, Option.some.injEq] at h
    subst h
    show d.checkerMap.erase threadId = d.registered.erase threadId
    rw [hkept]
  | due | check =>
    simp only [DeadlockChecker.step, hrunning, Bool.false_eq_true, if_false] at h
    split at h <;> simp only [reduceCtorEq, Option.some.injEq] at h
    subst h
    exact hkept
  | _ =>
    simp only [DeadlockChecker.step, hrunning, Bool.false_eq_true, if_false,
      Option.some.injEq] at h
    subst h
    exact hkept

/-- A step kills, by the state it leads to. -/
theorem kills_iff_of_step (h : d.step use e = some d') : Kills d use e ↔ d'.crashed = true := by
  constructor
  · rintro ⟨d'', hstep, hcrashed⟩
    rw [h] at hstep
    rwa [Option.some.inj hstep]
  · exact fun hcrashed => ⟨d', h, hcrashed⟩

/-- **Without the switch no step kills.** -/
theorem not_kills_of_unset : ¬ Kills d false e := by
  rintro ⟨d', hstep, hcrashed⟩
  obtain ⟨-, -, -, huse, -⟩ := (DeadlockChecker.crashed_step hstep).mp hcrashed
  cases huse

/-- **With it a step under healthy threads spares them exactly if it is settled.** -/
theorem spares_iff_settled (hkept : Kept d) (hhealthy : Healthy d e)
    (h : d.step true e = some d') : ¬ Kills d true e ↔ Settled d e := by
  rw [kills_iff_of_step h, DeadlockChecker.crashed_step h]
  cases e with
  | check =>
    simp only [true_and, not_exists, not_and, Settled]
    refine forall₂_congr fun now hnow => ?_
    rw [crashes_iff_of_healthy hkept (hhealthy now hnow), not_and_or, Nat.not_lt, not_exists]
  | _ => simp [Settled]

/-- And one at which a thread is late kills. -/
theorem kills_of_late (hkept : Kept d) (hlate : Late d e) (h : d.step true e = some d') :
    Kills d true e := by
  rw [kills_iff_of_step h, DeadlockChecker.crashed_step h]
  cases e with
  | check =>
    obtain ⟨now, hnow, worker, hreg, hlt⟩ := hlate
    exact ⟨rfl, now, hnow, rfl, crashes_of_late hkept hreg hlt⟩
  | _ => exact hlate.elim

/-- A run ends in a crash exactly if one of its steps kills. -/
theorem running_iff (hinit : (deadlockChecker use ThreadId Worker).Init d)
    (hr : (deadlockChecker use ThreadId Worker).run d es = some d') : d'.crashed = false ↔
      (deadlockChecker use ThreadId Worker).Meets (fun d e => ¬ Kills d use e) d es := by
  have hall := System.holds_iff_meets (P := fun d => d.crashed = false) (I := fun _ => True)
    (C := fun d e => ¬ Kills d use e) (fun _ _ _ _ _ => trivial) (fun d e d' _ hstep => ?_) hr
    trivial
  · exact hall.trans (and_iff_right hinit.2.2.2)
  · rw [and_iff_right (DeadlockChecker.running_of_step hstep), kills_iff_of_step hstep,
      Bool.not_eq_true]

/-- **The checker kills no healthy server and every late one**, over every run, from every start of
the clock and for either setting of the switch: without it, exactly if no thread is late at a check
that is due; with it, exactly if the checks of healthy threads are settled. -/
theorem spares_iff (hinit : (deadlockChecker use ThreadId Worker).Init d)
    (hr : (deadlockChecker use ThreadId Worker).run d es = some d') :
    ((deadlockChecker use ThreadId Worker).Meets Healthy d es → d'.crashed = false) ∧
      (deadlockChecker use ThreadId Worker).Meets (fun d e => Late d e → Kills d use e) d es ↔
    if use then (deadlockChecker use ThreadId Worker).Meets Healthy d es →
      (deadlockChecker use ThreadId Worker).Meets Settled d es
    else (deadlockChecker use ThreadId Worker).Meets (fun d e => ¬ Late d e) d es := by
  rw [running_iff hinit hr]
  cases use with
  | false =>
    have hnone : (deadlockChecker false ThreadId Worker).Meets
        (fun d e => ¬ Kills d false e) d es := System.meets_true.mono
      fun _ _ _ => not_kills_of_unset
    rw [and_iff_right fun _ => hnone, if_neg Bool.false_ne_true]
    constructor
    · exact System.Meets.mono fun _ _ hkills hlate => not_kills_of_unset (hkills hlate)
    · exact System.Meets.mono fun _ _ hnot hlate => absurd hlate hnot
  | true =>
    have hkept : Kept d := hinit.1.trans hinit.2.1.symm
    have hlate : (deadlockChecker true ThreadId Worker).Meets
        (fun d e => Late d e → Kills d true e) d es :=
      (System.meets_true.congr (P := Kept) (C := fun _ _ => True) (fun _ _ _ hk _ hstep =>
        ⟨hk.step hstep, iff_of_true trivial fun hl => kills_of_late hk hl hstep⟩) hr hkept).mp
        System.meets_true
    rw [and_iff_left hlate, if_pos rfl]
    refine forall_congr' fun hhealthy => ?_
    refine hhealthy.congr (P := Kept) (fun d e d' hk hh hstep => ?_) hr hkept
    exact ⟨hk.step hstep, spares_iff_settled hk hh hstep⟩

/-! ## One worker -/

section Decidable

variable [Fintype ThreadId] [Fintype Worker]

instance : DecidablePred d.Registered := fun worker =>
  inferInstanceAs (Decidable (∃ threadId, d.registered.lookup threadId = some worker))

-- over the option: `UInt64` is finite, and is not to be gone through
instance : Decidable (Late d e) := match e with
  | .check => match hnow : d.now with
    | none => .isFalse fun ⟨_, hmem, _⟩ => nomatch hnow.symm.trans hmem
    | some now => decidable_of_iff
        (∃ worker, d.Registered worker ∧ (d.nowTick worker).toNat + 20000 < now.toNat)
        ⟨fun h => ⟨now, hnow, h⟩, fun ⟨_, hmem, h⟩ => Option.some.inj (hnow.symm.trans hmem) ▸ h⟩
  | .elapse _ | .registerCheckThread .. | .deregisteredCheckThread _ | .update _ | .due =>
    .isFalse id

end Decidable

/-- A server with one worker, started a minute after its clock. -/
def oneWorker : DeadlockChecker Unit Unit where
  tickCount := 60000
  nowTick _ := 0
  checkerMap := ∅
  now := none
  crashed := false
  registered := ∅

/-- It registers its worker, and after so many ticks a check is due. -/
def dueAfter (ticks : UInt64) : List (DeadlockEvent Unit Unit) :=
  [.update (), .registerCheckThread () (), .elapse ticks, .due]

/-- Two seconds after its turn the worker is not late, and the process goes on. -/
theorem spares_minute : ∃ d,
    (deadlockChecker useDedalockChecker Unit Unit).run oneWorker (dueAfter 2000 ++ [.check]) =
        some d ∧
      ((deadlockChecker useDedalockChecker Unit Unit).Meets Healthy oneWorker
        (dueAfter 2000 ++ [.check]) → d.crashed = false) ∧
      (deadlockChecker useDedalockChecker Unit Unit).Meets
        (fun d e => Late d e → Kills d useDedalockChecker e) oneWorker
        (dueAfter 2000 ++ [.check]) := by
  obtain ⟨d, hmeets, hr, -⟩ := System.exists_run
    (deadlockChecker useDedalockChecker Unit Unit) (dueAfter 2000 ++ [.check])
    (c := fun d e => decide (¬ Late d e)) (f := fun _ => true) (s := oneWorker) (by decide +kernel)
  exact ⟨d, hr, (spares_iff ⟨rfl, rfl, rfl, rfl⟩ hr).mpr
    (hmeets.mono fun _ _ => of_decide_eq_true)⟩

/-- **A worker that has not come back for 30 seconds** is late at the check, and the process goes
on. -/
theorem not_spares_late : ∃ d, (deadlockChecker useDedalockChecker Unit Unit).Init oneWorker ∧
    (deadlockChecker useDedalockChecker Unit Unit).run oneWorker (dueAfter 30000 ++ [.check]) =
      some d ∧
    d.crashed = false ∧ ¬ (deadlockChecker useDedalockChecker Unit Unit).Meets
      (fun d e => Late d e → Kills d useDedalockChecker e) oneWorker
      (dueAfter 30000 ++ [.check]) := by
  obtain ⟨u, -, hu, hlate⟩ := System.exists_run (deadlockChecker useDedalockChecker Unit Unit)
    (dueAfter 30000) (c := fun _ _ => true) (f := fun d => decide (Late d .check))
    (s := oneWorker) (by decide +kernel)
  obtain ⟨d, -, hd, hcrashed⟩ := System.exists_run (deadlockChecker useDedalockChecker Unit Unit)
    (dueAfter 30000 ++ [.check]) (c := fun _ _ => true) (f := fun d => !d.crashed)
    (s := oneWorker) (by decide +kernel)
  refine ⟨d, ⟨rfl, rfl, rfl, rfl⟩, hd, by simpa using hcrashed, fun hmeets => ?_⟩
  exact not_kills_of_unset ((hmeets.of_append hu).1 (of_decide_eq_true hlate))

end RIOCore

end DdingGameServer
