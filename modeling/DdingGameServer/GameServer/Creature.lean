import DdingGameServer.Common.Changes
import DdingGameServer.Common.System
import Mathlib.Algebra.Order.Ring.Int
import Mathlib.Data.Int.Order.Basic
/-!
# Creature — health, death and revival

`SetHP`, `AddHP` and `SubtractHP` change the health of a living creature, `Revive` gives a dead one
health again. Each of the four holds the health within its bounds in its own way: the first two look
at the upper bound, `SubtractHP` at the lower one, `Revive` at the sign of its argument.
`coherentThroughout_iff` says which calls that leaves out; `hooks_alternate` says that what a
derived class is told of deaths and revivals is in order all the same.

An `int` is 32 bits wide and wraps around; `NoOverflow` names the calls that do not.
-/

namespace DdingGameServer

namespace GameServer

/-- The health of a `Creature`. -/
structure Creature where
  maxHP : Int32
  nowHP : Int32
  isAlive : Bool
  deriving DecidableEq, Repr

namespace Creature

/-- The hooks that the four calls run. -/
inductive Hook
  | onDied
  | onRevived
  deriving DecidableEq, Repr

/-- `SetHP`, with the hook it runs. -/
def setHP (c : Creature) (newHP : Int32) : Creature × Option Hook :=
  if c.isAlive = false then (c, none)
  else
    let c := { c with nowHP := newHP }
    if c.maxHP < c.nowHP then ({ c with nowHP := c.maxHP }, none)
    else if c.nowHP < 0 then ({ c with nowHP := 0, isAlive := false }, some .onDied)
    else (c, none)

/-- `AddHP`. -/
def addHP (c : Creature) (addHP : Int32) : Creature × Option Hook :=
  if c.isAlive = false then (c, none)
  else
    let c := { c with nowHP := c.nowHP + addHP }
    if c.maxHP < c.nowHP then ({ c with nowHP := c.maxHP }, none)
    else (c, none)

/-- `SubtractHP`. -/
def subtractHP (c : Creature) (subtractHP : Int32) : Creature × Option Hook :=
  if c.isAlive = false then (c, none)
  else
    let c := { c with nowHP := c.nowHP - subtractHP }
    if c.nowHP ≤ 0 then ({ c with nowHP := 0, isAlive := false }, some .onDied)
    else (c, none)

/-- `Revive`. -/
def revive (c : Creature) (newHP : Int32) : Creature × Option Hook :=
  if c.isAlive = true ∨ newHP < 0 then (c, none)
  else ({ c with nowHP := newHP, isAlive := true }, some .onRevived)

/-- A call of one of the four. -/
inductive Call
  | setHP (newHP : Int32)
  | addHP (addHP : Int32)
  | subtractHP (subtractHP : Int32)
  | revive (newHP : Int32)
  deriving DecidableEq, Repr

/-- What a call does. -/
def call (c : Creature) : Call → Creature × Option Hook
  | .setHP newHP => c.setHP newHP
  | .addHP addHP => c.addHP addHP
  | .subtractHP subtractHP => c.subtractHP subtractHP
  | .revive newHP => c.revive newHP

/-- **A creature**, called in any order. -/
def system : System Creature Call where
  Init _ := True
  step c e := some (c.call e).1

/-! ## Coherent health -/

/-- **The health is coherent**: it lies between 0 and the maximum, and the living have some. -/
structure Coherent (c : Creature) : Prop where
  nonneg : 0 ≤ c.nowHP
  le_max : c.nowHP ≤ c.maxHP
  alive : c.isAlive = true ↔ 0 < c.nowHP

/-- The values of an `int`. -/
def InIntRange (x : Int) : Prop := -2 ^ 31 ≤ x ∧ x < 2 ^ 31

instance (x : Int) : Decidable (InIntRange x) := inferInstanceAs (Decidable (_ ∧ _))

/-- The sum or difference a call computes is an `int`. -/
def NoOverflow (c : Creature) : Call → Prop
  | .addHP addHP => c.isAlive = true → InIntRange (c.nowHP.toInt + addHP.toInt)
  | .subtractHP subtractHP => c.isAlive = true → InIntRange (c.nowHP.toInt - subtractHP.toInt)
  | _ => True

/-- A call stays clear of what its function does not look at: a health of 0 in `SetHP`, the lower
bound in `AddHP`, the upper one in `SubtractHP`, and both ends in `Revive`. -/
def StaysClear (c : Creature) : Call → Prop
  | .setHP newHP => c.isAlive = true → newHP ≠ 0
  | .addHP addHP => c.isAlive = true → 0 < c.nowHP.toInt + addHP.toInt
  | .subtractHP subtractHP =>
    c.isAlive = true → c.nowHP.toInt - subtractHP.toInt ≤ c.maxHP.toInt
  | .revive newHP => c.isAlive = false → 0 ≤ newHP → 0 < newHP ∧ newHP ≤ c.maxHP

instance (c : Creature) (e : Call) : Decidable (NoOverflow c e) := by
  cases e <;> (unfold NoOverflow; infer_instance)

instance (c : Creature) (e : Call) : Decidable (StaysClear c e) := by
  cases e <;> (unfold StaysClear; infer_instance)

variable {c : Creature} {e : Call} {calls : List Call} {x y : Int32}

/-- Without overflow a sum is the sum, -/
theorem toInt_add_of_inIntRange (h : InIntRange (x.toInt + y.toInt)) :
    (x + y).toInt = x.toInt + y.toInt := by
  obtain ⟨hlow, hhigh⟩ := h
  rw [Int32.toInt_add]
  exact Int.bmod_eq_of_le (by omega) (by omega)

/-- and a difference the difference. -/
theorem toInt_sub_of_inIntRange (h : InIntRange (x.toInt - y.toInt)) :
    (x - y).toInt = x.toInt - y.toInt := by
  obtain ⟨hlow, hhigh⟩ := h
  rw [Int32.toInt_sub]
  exact Int.bmod_eq_of_le (by omega) (by omega)

/-- **What a call can do**: nothing, change the health of the living, kill, or revive. -/
inductive Outcome (c : Creature) : Creature × Option Hook → Prop
  | ignored : Outcome c (c, none)
  | changed (nowHP : Int32) (halive : c.isAlive = true) : Outcome c ({ c with nowHP }, none)
  | died (halive : c.isAlive = true) :
      Outcome c ({ c with nowHP := 0, isAlive := false }, some .onDied)
  | revived (nowHP : Int32) (hdead : c.isAlive = false) :
      Outcome c ({ c with nowHP, isAlive := true }, some .onRevived)

theorem outcome_call (c : Creature) (e : Call) : Outcome c (c.call e) := by
  have halive : ¬ c.isAlive = false → c.isAlive = true := Bool.of_not_eq_false
  cases e with
  | setHP newHP =>
    simp only [call, setHP]
    split_ifs with hdead hover hneg
    · exact .ignored
    · exact .changed c.maxHP (halive hdead)
    · exact .died (halive hdead)
    · exact .changed newHP (halive hdead)
  | addHP a =>
    simp only [call, addHP]
    split_ifs with hdead hover
    · exact .ignored
    · exact .changed c.maxHP (halive hdead)
    · exact .changed (c.nowHP + a) (halive hdead)
  | subtractHP a =>
    simp only [call, subtractHP]
    split_ifs with hdead hzero
    · exact .ignored
    · exact .died (halive hdead)
    · exact .changed (c.nowHP - a) (halive hdead)
  | revive newHP =>
    simp only [call, revive]
    split_ifs with hrefused
    · exact .ignored
    · exact .revived newHP (Bool.eq_false_iff.mpr fun h => hrefused (.inl h))

/-- No call changes the maximum. -/
theorem maxHP_call : (c.call e).1.maxHP = c.maxHP := by
  have houtcome := outcome_call c e
  generalize c.call e = r at houtcome ⊢
  cases houtcome <;> rfl

/-- Coherence over the integers. -/
theorem coherent_iff_toInt :
    Coherent c ↔ 0 ≤ c.nowHP.toInt ∧ c.nowHP.toInt ≤ c.maxHP.toInt ∧
      (c.isAlive = true ↔ 0 < c.nowHP.toInt) := by
  have hzero : Int32.toInt 0 = 0 := rfl
  rw [← hzero, ← Int32.le_iff_toInt_le, ← Int32.le_iff_toInt_le, ← Int32.lt_iff_toInt_lt]
  exact ⟨fun ⟨h0, hmax, halive⟩ => ⟨h0, hmax, halive⟩, fun ⟨h0, hmax, halive⟩ => ⟨h0, hmax, halive⟩⟩

/-- The living are coherent where their health is positive and in bounds. -/
theorem coherent_iff_of_alive (halive : c.isAlive = true) :
    Coherent c ↔ 0 < c.nowHP.toInt ∧ c.nowHP.toInt ≤ c.maxHP.toInt := by
  rw [coherent_iff_toInt, halive]
  simp only [true_iff]
  omega

/-- The dead are coherent where they have none. -/
theorem coherent_zero (hmax : 0 < c.maxHP) : Coherent { c with nowHP := 0, isAlive := false } :=
  ⟨Int32.le_refl 0, Int32.le_of_lt hmax, by simp⟩

/-- `SetHP` lets the living have no health. -/
theorem coherent_setHP_iff (hmax : 0 < c.maxHP) (h : Coherent c) :
    Coherent (c.setHP x).1 ↔ (c.isAlive = true → x ≠ 0) := by
  cases halive : c.isAlive with
  | false => simpa [setHP, halive] using h
  | true =>
    have hmax' : 0 < c.maxHP.toInt := Int32.lt_iff_toInt_lt.mp hmax
    have hzero : x = 0 ↔ x.toInt = 0 := Int32.toInt_inj.symm
    simp only [setHP, halive, Bool.true_eq_false, if_false, forall_const]
    split_ifs with hover hneg
    · have hover' := Int32.lt_iff_toInt_lt.mp hover
      rw [coherent_iff_of_alive rfl, ne_eq, hzero]
      dsimp only at hover' ⊢
      omega
    · have hneg' : x.toInt < 0 := Int32.lt_iff_toInt_lt.mp hneg
      rw [ne_eq, hzero]
      exact iff_of_true (coherent_zero hmax) (by omega)
    · rw [Int32.lt_iff_toInt_lt] at hover hneg
      rw [coherent_iff_of_alive rfl, ne_eq, hzero]
      dsimp only at hover hneg ⊢
      have hneg' : ¬ x.toInt < 0 := hneg
      omega

/-- `AddHP` lets a negative amount take all of it. -/
theorem coherent_addHP_iff (hmax : 0 < c.maxHP) (h : Coherent c)
    (hno : c.isAlive = true → InIntRange (c.nowHP.toInt + x.toInt)) :
    Coherent (c.addHP x).1 ↔ (c.isAlive = true → 0 < c.nowHP.toInt + x.toInt) := by
  cases halive : c.isAlive with
  | false => simpa [addHP, halive] using h
  | true =>
    have hmax' : 0 < c.maxHP.toInt := Int32.lt_iff_toInt_lt.mp hmax
    have hsum := toInt_add_of_inIntRange (hno halive)
    simp only [addHP, halive, Bool.true_eq_false, if_false, forall_const]
    split_ifs with hover
    · rw [Int32.lt_iff_toInt_lt, hsum] at hover
      rw [coherent_iff_of_alive rfl]
      dsimp only
      omega
    · rw [Int32.lt_iff_toInt_lt, hsum] at hover
      rw [coherent_iff_of_alive rfl]
      dsimp only
      omega

/-- `SubtractHP` lets a negative amount exceed the maximum. -/
theorem coherent_subtractHP_iff (hmax : 0 < c.maxHP) (h : Coherent c)
    (hno : c.isAlive = true → InIntRange (c.nowHP.toInt - x.toInt)) :
    Coherent (c.subtractHP x).1 ↔
      (c.isAlive = true → c.nowHP.toInt - x.toInt ≤ c.maxHP.toInt) := by
  cases halive : c.isAlive with
  | false => simpa [subtractHP, halive] using h
  | true =>
    have hmax' : 0 < c.maxHP.toInt := Int32.lt_iff_toInt_lt.mp hmax
    have hdiff := toInt_sub_of_inIntRange (hno halive)
    have hzero : Int32.toInt 0 = 0 := rfl
    simp only [subtractHP, halive, Bool.true_eq_false, if_false, forall_const]
    split_ifs with hdead
    · rw [Int32.le_iff_toInt_le, hdiff, hzero] at hdead
      exact iff_of_true (coherent_zero hmax) (by omega)
    · rw [Int32.le_iff_toInt_le, hdiff, hzero] at hdead
      rw [coherent_iff_of_alive rfl]
      dsimp only
      omega

/-- `Revive` takes any health that is not negative. -/
theorem coherent_revive_iff (h : Coherent c) :
    Coherent (c.revive x).1 ↔ (c.isAlive = false → 0 ≤ x → 0 < x ∧ x ≤ c.maxHP) := by
  cases halive : c.isAlive with
  | true => simpa [revive, halive] using h
  | false =>
    simp only [revive, halive, Bool.false_eq_true, false_or, forall_const]
    split_ifs with hneg
    · exact iff_of_true h fun h0 => absurd hneg (Int32.not_lt.mpr h0)
    · have h0 : 0 ≤ x := Int32.not_lt.mp hneg
      have hzero : Int32.toInt 0 = 0 := rfl
      rw [coherent_iff_of_alive rfl, forall_prop_of_true h0, Int32.lt_iff_toInt_lt,
        Int32.le_iff_toInt_le, hzero]

/-- **A call keeps the health coherent exactly where it stays clear** of what is not looked at. -/
theorem coherent_call_iff (hmax : 0 < c.maxHP) (h : Coherent c) (hno : NoOverflow c e) :
    Coherent (c.call e).1 ↔ StaysClear c e := by
  cases e with
  | setHP newHP => exact coherent_setHP_iff hmax h
  | addHP a => exact coherent_addHP_iff hmax h hno
  | subtractHP a => exact coherent_subtractHP_iff hmax h hno
  | revive newHP => exact coherent_revive_iff h

/-- Every call is answered. -/
theorem exists_run (c : Creature) (calls : List Call) : ∃ c', system.run c calls = some c' := by
  induction calls generalizing c with
  | nil => exact ⟨c, rfl⟩
  | cons e calls ih => exact ih (c.call e).1

/-- **Creature health stays coherent exactly as long as every call stays clear** of the bound its
function does not look at, for every sequence of calls without overflow. -/
theorem coherentThroughout_iff (hmax : 0 < c.maxHP) (h : Coherent c)
    (hno : system.Meets NoOverflow c calls) :
    system.Throughout Coherent c calls ↔ system.Meets StaysClear c calls := by
  obtain ⟨c', hrun⟩ := exists_run c calls
  refine hno.throughout_iff (I := fun c => 0 < c.maxHP) (fun c e c' hmax hstep => ?_)
    (fun c e c' hmax h hno hstep => ?_) hrun hmax h
  · obtain rfl := Option.some.inj hstep
    rwa [maxHP_call]
  · obtain rfl := Option.some.inj hstep
    exact coherent_call_iff hmax h hno

/-- A creature is hurt, healed beyond its maximum, killed and revived. -/
theorem coherentThroughout_life :
    system.Throughout Coherent ⟨100, 80, true⟩
      [.subtractHP 30, .addHP 70, .subtractHP 100, .addHP 5, .revive 40] := by
  have hrun : system.runUnder (fun c e => decide (NoOverflow c e ∧ StaysClear c e))
      ⟨100, 80, true⟩ [.subtractHP 30, .addHP 70, .subtractHP 100, .addHP 5, .revive 40] =
      some ⟨100, 40, true⟩ := by decide
  obtain ⟨hmeets, -⟩ := System.runUnder_eq_some hrun
  refine (coherentThroughout_iff (by decide) ⟨by decide, by decide, by decide⟩ ?_).mpr ?_
  · exact hmeets.mono fun _ _ h => (of_decide_eq_true h).1
  · exact hmeets.mono fun _ _ h => (of_decide_eq_true h).2

/-- **A living creature's health is set to 0.** -/
theorem not_coherentThroughout_setHP_zero :
    0 < (⟨100, 80, true⟩ : Creature).maxHP ∧ Coherent ⟨100, 80, true⟩ ∧
      system.Meets NoOverflow ⟨100, 80, true⟩ [.setHP 0] ∧
      ¬ system.Throughout Coherent ⟨100, 80, true⟩ [.setHP 0] := by
  refine ⟨by decide, ⟨by decide, by decide, by decide⟩, ⟨trivial, fun _ _ => trivial⟩, fun h => ?_⟩
  have halive : true = true ↔ (0 : Int32) < 0 := (h.2 ⟨100, 0, true⟩ rfl).alive
  exact absurd (halive.mp rfl) (by decide)

/-! ## Death and revival -/

/-- What a hook says of the creature. -/
def Hook.alive : Hook → Bool
  | .onDied => false
  | .onRevived => true

/-- A creature, and the hooks run so far. -/
structure Life where
  creature : Creature
  hooks : List Hook

/-- One call. -/
def Life.call (l : Life) (e : Call) : Life where
  creature := (l.creature.call e).1
  hooks := l.hooks ++ (l.creature.call e).2.toList

/-- A sequence of calls. -/
def Life.run (l : Life) (calls : List Call) : Life :=
  calls.foldl Life.call l

/-- **Death and revival alternate** from a creature to a life of it. -/
structure Alternates (start : Creature) (l : Life) : Prop where
  alternate : l.hooks.IsChain (· ≠ ·)
  first : ∀ hook ∈ l.hooks.head?, (hook = .onDied ↔ start.isAlive = true)
  alive : match l.hooks.getLast? with
    | none => l.creature.isAlive = start.isAlive
    | some hook => l.creature.isAlive = true ↔ hook = .onRevived
  dead : l.creature.isAlive = false → ∀ e, (l.creature.call e).2 ≠ some .onRevived →
    (l.creature.call e).1.nowHP = l.creature.nowHP

/-- **A hook runs exactly where the creature dies or comes back**, and says which. -/
theorem call_hook (c : Creature) (e : Call) :
    ((c.call e).2 = none ∧ (c.call e).1.isAlive = c.isAlive) ∨
      ∃ hook, (c.call e).2 = some hook ∧ hook.alive ≠ c.isAlive ∧
        (c.call e).1.isAlive = hook.alive := by
  have houtcome := outcome_call c e
  generalize c.call e = r at houtcome ⊢
  cases houtcome with
  | ignored => exact .inl ⟨rfl, rfl⟩
  | changed nowHP halive => exact .inl ⟨rfl, rfl⟩
  | died halive => exact .inr ⟨.onDied, rfl, by rw [halive]; decide, rfl⟩
  | revived nowHP hdead => exact .inr ⟨.onRevived, rfl, by rw [hdead]; decide, rfl⟩

/-- Only a revival changes the health of the dead. -/
theorem nowHP_call_of_dead (hdead : c.isAlive = false) (hhook : (c.call e).2 ≠ some .onRevived) :
    (c.call e).1.nowHP = c.nowHP := by
  have houtcome := outcome_call c e
  generalize c.call e = r at houtcome hhook ⊢
  cases houtcome with
  | ignored => rfl
  | changed nowHP halive => exact absurd (hdead.symm.trans halive) Bool.false_ne_true
  | died halive => exact absurd (hdead.symm.trans halive) Bool.false_ne_true
  | revived nowHP _ => exact absurd rfl hhook

/-- The hooks of a life log the changes of `isAlive`. -/
def Logs (start : Creature) (l : Life) : Prop :=
  Changes start.isAlive (l.hooks.map Hook.alive) l.creature.isAlive

/-- One call keeps the log, -/
theorem Logs.call {l : Life} (h : Logs c l) (e : Call) : Logs c (l.call e) := by
  unfold Logs Life.call
  rcases call_hook l.creature e with ⟨hnone, halive⟩ | ⟨hook, hsome, hne, halive⟩
  · rw [hnone, halive, Option.toList_none, List.append_nil]
    exact h
  · rw [hsome, halive, Option.toList_some, List.map_append]
    exact .change h hne

/-- and so does any number of them. -/
theorem Logs.run {l : Life} (h : Logs c l) (calls : List Call) : Logs c (l.run calls) := by
  induction calls generalizing l with
  | nil => exact h
  | cons e calls ih => exact ih (h.call e)

/-- What the log says of the hooks. -/
theorem Logs.alternates {l : Life} (h : Logs c l) : Alternates c l where
  alternate := by
    refine (List.isChain_map Hook.alive).mp h.isChain |>.imp fun h h' hne heq => hne ?_
    rw [heq]
  first hook hhead := by
    have hne : hook.alive ≠ c.isAlive := h.ne_of_mem_head? (by
      rw [List.head?_map, Option.mem_def.mp hhead]
      rfl)
    cases hook with
    | onDied => exact iff_of_true rfl (Bool.of_not_eq_false hne.symm)
    | onRevived => exact iff_of_false (by decide) hne.symm
  alive := by
    have hlast := h.eq_getD_getLast?
    rw [List.getLast?_map] at hlast
    cases hl : l.hooks.getLast? with
    | none => simpa [hl] using hlast
    | some hook =>
      rw [hl] at hlast
      have hhook : l.creature.isAlive = hook.alive := hlast
      cases hook <;> simp [hhook, Hook.alive]
  dead hdead _ hhook := nowHP_call_of_dead hdead hhook

/-- **Death and revival alternate**, after every sequence of calls on any creature, wrapped around
or not. -/
theorem hooks_alternate (c : Creature) (calls : List Call) :
    Alternates c (Life.run ⟨c, []⟩ calls) := by
  have hstart : Logs c ⟨c, []⟩ := .refl
  exact (hstart.run calls).alternates

/-! ## Saturation -/

/-- **Health saturates**: what `AddHP` and `SubtractHP` compute is an `int`, and they leave the sum
cut off at the maximum and the difference cut off at 0. -/
structure Saturates (c : Creature) (a : Int32) : Prop where
  sum_inIntRange : InIntRange (c.nowHP.toInt + a.toInt)
  addHP : (c.addHP a).1.nowHP.toInt = min c.maxHP.toInt (c.nowHP.toInt + a.toInt)
  difference_inIntRange : InIntRange (c.nowHP.toInt - a.toInt)
  subtractHP : (c.subtractHP a).1.nowHP.toInt = max 0 (c.nowHP.toInt - a.toInt)

/-- **`AddHP` saturates exactly where the sum is an `int`.** The sum that is not wraps around to a
negative health, which is not above the maximum. -/
theorem addHP_saturates_iff (halive : c.isAlive = true) (hnow : 0 < c.nowHP)
    (hmax : c.nowHP ≤ c.maxHP) (hx : 0 ≤ x) :
    (c.addHP x).1.nowHP.toInt = min c.maxHP.toInt (c.nowHP.toInt + x.toInt) ↔
      c.nowHP.toInt + x.toInt ≤ 2 ^ 31 - 1 := by
  have hnow' : 0 < c.nowHP.toInt := Int32.lt_iff_toInt_lt.mp hnow
  have hmax' := Int32.le_iff_toInt_le.mp hmax
  have hx' : 0 ≤ x.toInt := Int32.le_iff_toInt_le.mp hx
  simp only [Creature.addHP, halive, Bool.true_eq_false, if_false]
  by_cases hrange : c.nowHP.toInt + x.toInt ≤ 2 ^ 31 - 1
  · have hsum := toInt_add_of_inIntRange (x := c.nowHP) (y := x) ⟨by omega, by omega⟩
    refine iff_of_true ?_ hrange
    split_ifs with hover
    · rw [Int32.lt_iff_toInt_lt, hsum] at hover
      exact (min_eq_left hover.le).symm
    · rw [Int32.lt_iff_toInt_lt, hsum] at hover
      dsimp only
      rw [hsum, min_eq_right (not_lt.mp hover)]
  · have hnow_lt := c.nowHP.toInt_lt
    have hx_lt := x.toInt_lt
    have hwrap : (c.nowHP + x).toInt = c.nowHP.toInt + x.toInt - 2 ^ 32 := by
      rw [Int32.toInt_add, Int.bmod_def]
      omega
    have hover : ¬ c.maxHP < c.nowHP + x := by
      rw [Int32.lt_iff_toInt_lt, hwrap]
      omega
    rw [if_neg hover]
    refine iff_of_false ?_ hrange
    dsimp only
    rw [hwrap]
    omega

/-- `SubtractHP` saturates for every amount that is not negative. -/
theorem subtractHP_saturates (halive : c.isAlive = true) (hnow : 0 < c.nowHP) (hx : 0 ≤ x) :
    InIntRange (c.nowHP.toInt - x.toInt) ∧
      (c.subtractHP x).1.nowHP.toInt = max 0 (c.nowHP.toInt - x.toInt) := by
  have hnow' : 0 < c.nowHP.toInt := Int32.lt_iff_toInt_lt.mp hnow
  have hx' : 0 ≤ x.toInt := Int32.le_iff_toInt_le.mp hx
  have hnow_lt := c.nowHP.toInt_lt
  have hx_lt := x.toInt_lt
  have hrange : InIntRange (c.nowHP.toInt - x.toInt) := ⟨by omega, by omega⟩
  have hdiff := toInt_sub_of_inIntRange hrange
  have hzero : Int32.toInt 0 = 0 := rfl
  refine ⟨hrange, ?_⟩
  simp only [Creature.subtractHP, halive, Bool.true_eq_false, if_false]
  split_ifs with hdead
  · rw [Int32.le_iff_toInt_le, hdiff, hzero] at hdead
    exact (max_eq_left hdead).symm
  · rw [Int32.le_iff_toInt_le, hdiff, hzero] at hdead
    dsimp only
    rw [hdiff, max_eq_right (not_le.mp hdead).le]

/-- **Health arithmetic saturates exactly where the sum is an `int`**, for every living creature in
bounds and every amount that is not negative. -/
theorem saturates_iff (halive : c.isAlive = true) (hnow : 0 < c.nowHP) (hmax : c.nowHP ≤ c.maxHP)
    (hx : 0 ≤ x) : Saturates c x ↔ c.nowHP.toInt + x.toInt ≤ 2 ^ 31 - 1 := by
  have hadd := addHP_saturates_iff halive hnow hmax hx
  obtain ⟨hdiff, hsub⟩ := subtractHP_saturates halive hnow hx
  refine ⟨fun h => hadd.mp h.addHP, fun h => ⟨⟨?_, by omega⟩, hadd.mpr h, hdiff, hsub⟩⟩
  have hnow' : 0 < c.nowHP.toInt := Int32.lt_iff_toInt_lt.mp hnow
  have hx' : 0 ≤ x.toInt := Int32.le_iff_toInt_le.mp hx
  omega

/-- A heal beyond the maximum, and a blow beyond 0. -/
theorem saturates_ninety : Saturates ⟨100, 80, true⟩ 90 :=
  (saturates_iff rfl (by decide) (by decide) (by decide)).mpr (by decide)

/-- **A heal of 1 at the greatest `int`** leaves a negative health. -/
theorem not_saturates_intMax :
    (0 : Int32) < 2147483647 ∧ ¬ Saturates ⟨2147483647, 2147483647, true⟩ 1 ∧
      (addHP ⟨2147483647, 2147483647, true⟩ 1).1.nowHP < 0 := by
  refine ⟨by decide, fun h => ?_, by decide⟩
  exact absurd h.addHP (by decide)

end Creature

end GameServer

end DdingGameServer
