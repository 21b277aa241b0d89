import Mathlib.Data.List.Count
import Mathlib.Data.List.Perm.Basic
import DdingGameServer.Common.Tally
/-!
# Lending from a pool

Resources lie free in a list or are held by processes, each process holding one at most: `f p` is
what process `p` holds. `Lends initial free f processes` says that free and held resources together
are the initial ones, counted with multiplicity. Lending, giving back and whatever a process does
in between keep it; where the initial resources are distinct it makes every holder the only one.
-/

namespace DdingGameServer

universe u v

variable {α : Type u} {ρ : Type v} [DecidableEq ρ] {f : α → Option ρ} {initial free : List ρ}
  {processes : List α} {i j : ℕ} {p q : α} {r : ρ}

/-- How many processes hold `r`. -/
def holders (f : α → Option ρ) (processes : List α) (r : ρ) : ℕ :=
  tally (fun p => if f p = some r then 1 else 0) processes

/-- **Nothing is lost and nothing is made**: each resource is free or held as often as it was
there initially. -/
def Lends (initial free : List ρ) (f : α → Option ρ) (processes : List α) : Prop :=
  ∀ r, free.count r + holders f processes r = initial.count r

theorem holders_of_none (h : ∀ p ∈ processes, f p = none) : holders f processes r = 0 :=
  tally_eq_zero.mpr fun p hp => by simp [h p hp]

theorem holders_pos (hi : processes[i]? = some p) (hp : f p = some r) :
    1 ≤ holders f processes r := by
  have h := le_tally (f := fun p => if f p = some r then 1 else 0) hi
  rwa [if_pos hp] at h

/-! ## What processes do -/

/-- At the start everything is free. -/
theorem Lends.start (h : ∀ p ∈ processes, f p = none) : Lends initial initial f processes := by
  intro r
  rw [holders_of_none h, Nat.add_zero]

/-- One more process, holding nothing. -/
theorem Lends.join (h : Lends initial free f processes) (hp : f p = none) :
    Lends initial free f (processes ++ [p]) := by
  intro r
  have hsum : holders f (processes ++ [p]) r = holders f processes r := by
    simp [holders, tally, hp]
  rw [hsum]
  exact h r

/-- A step that leaves what its process holds. -/
theorem Lends.keep (h : Lends initial free f processes) (hi : processes[i]? = some p)
    (hpq : f q = f p) : Lends initial free f (processes.set i q) := by
  intro r
  have hset := tally_set (f := fun p => if f p = some r then 1 else 0) (b := q) hi
  have hr := h r
  simp only [hpq] at hset
  simp only [holders] at hr ⊢
  omega

/-- **A process takes a free resource.** -/
theorem Lends.lend {free' : List ρ} (h : Lends initial free f processes)
    (hi : processes[i]? = some p) (hfree : free.Perm (r :: free')) (hp : f p = none)
    (hq : f q = some r) : Lends initial free' f (processes.set i q) := by
  intro r'
  have hset := tally_set (f := fun p => if f p = some r' then 1 else 0) (b := q) hi
  have hr := h r'
  have hcount := hfree.count_eq r'
  simp only [hp, hq, Option.some.injEq, reduceCtorEq, if_false] at hset
  rw [List.count_cons, beq_eq_decide] at hcount
  simp only [decide_eq_true_eq] at hcount
  simp only [holders] at hr ⊢
  omega

/-- **A process gives its resource back.** -/
theorem Lends.giveBack {free' : List ρ} (h : Lends initial free f processes)
    (hi : processes[i]? = some p) (hp : f p = some r) (hfree : free'.Perm (r :: free))
    (hq : f q = none) : Lends initial free' f (processes.set i q) := by
  intro r'
  have hset := tally_set (f := fun p => if f p = some r' then 1 else 0) (b := q) hi
  have hr := h r'
  have hcount := hfree.count_eq r'
  simp only [hp, hq, Option.some.injEq, reduceCtorEq, if_false] at hset
  rw [List.count_cons, beq_eq_decide] at hcount
  simp only [decide_eq_true_eq] at hcount
  simp only [holders] at hr ⊢
  omega

/-! ## What it gives for distinct resources -/

/-- A resource is free or held, and no more than once. -/
theorem Lends.once (h : Lends initial free f processes) (hnodup : initial.Nodup) (r : ρ) :
    free.count r + holders f processes r ≤ 1 := by
  rw [h r]
  exact List.nodup_iff_count.mp hnodup r

/-- **A resource has one holder.** -/
theorem Lends.exclusive (h : Lends initial free f processes) (hnodup : initial.Nodup)
    (hi : processes[i]? = some p) (hj : processes[j]? = some q) (hp : f p = some r)
    (hq : f q = some r) : i = j := by
  by_contra hij
  have htwo := add_le_tally (f := fun p => if f p = some r then 1 else 0) hij hi hj
  have hone := h.once hnodup r
  simp only [hp, hq, if_true] at htwo
  simp only [holders] at hone
  omega

/-- What is held is not free, -/
theorem Lends.notMem_of_held (h : Lends initial free f processes) (hnodup : initial.Nodup)
    (hi : processes[i]? = some p) (hp : f p = some r) : r ∉ free := by
  intro hr
  have hone := h.once hnodup r
  have hheld := holders_pos hi hp
  have hfree := List.count_pos_iff.mpr hr
  omega

/-- and it was there initially. -/
theorem Lends.mem_of_held (h : Lends initial free f processes) (hi : processes[i]? = some p)
    (hp : f p = some r) : r ∈ initial := by
  have hr := h r
  have hheld := holders_pos hi hp
  exact List.count_pos_iff.mp (by omega)

/-- What is not free any more has a holder. -/
theorem Lends.exists_holder (h : Lends initial free f processes) (hr : r ∈ initial)
    (hfree : r ∉ free) : ∃ (i : ℕ) (p : α), processes[i]? = some p ∧ f p = some r := by
  have hcount := h r
  rw [List.count_eq_zero_of_not_mem hfree, Nat.zero_add] at hcount
  have hpos := List.count_pos_iff.mpr hr
  by_contra hnone
  push Not at hnone
  have hzero : holders f processes r = 0 := by
    refine tally_eq_zero.mpr fun p hp => ?_
    obtain ⟨i, hi⟩ := List.mem_iff_getElem?.mp hp
    rw [if_neg (hnone i p hi)]
  omega

/-- What the processes hold, counted. -/
theorem holders_eq_count : holders f processes r = (processes.filterMap f).count r := by
  induction processes with
  | nil => rfl
  | cons p processes ih =>
    rw [holders, tally_cons, ← holders, ih]
    cases hp : f p with
    | none => simp [List.filterMap_cons_none hp]
    | some r' =>
      rw [List.filterMap_cons_some hp, List.count_cons, add_comm]
      simp

/-- Processes that hold the same. -/
theorem Lends.congr {processes' : List α} (h : Lends initial free f processes)
    (hheld : processes'.filterMap f = processes.filterMap f) :
    Lends initial free f processes' := by
  intro r
  rw [holders_eq_count, hheld, ← holders_eq_count]
  exact h r

/-- **Free and held together are the initial resources**, in some order, -/
theorem Lends.perm_append (h : Lends initial free f processes) :
    (free ++ processes.filterMap f).Perm initial := by
  rw [List.perm_iff_count]
  intro r
  rw [List.count_append, ← holders_eq_count, h r]

/-- and as many. -/
theorem Lends.length_add (h : Lends initial free f processes) :
    free.length + (processes.filterMap f).length = initial.length := by
  rw [← List.length_append, h.perm_append.length_eq]

/-- Where no process holds anything, the free resources are the initial ones in some order. -/
theorem Lends.perm (h : Lends initial free f processes) (hnone : ∀ p ∈ processes, f p = none) :
    free.Perm initial := by
  have hperm := h.perm_append
  rwa [List.filterMap_eq_nil_iff.mpr hnone, List.append_nil] at hperm

end DdingGameServer
