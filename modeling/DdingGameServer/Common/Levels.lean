import Mathlib.Algebra.BigOperators.Group.List.Basic
import Mathlib.Algebra.Group.Action.Defs
import Mathlib.Algebra.Order.BigOperators.Group.List
import Mathlib.Algebra.Order.Group.Nat
import Mathlib.Tactic.Common
/-!
# Counters that are levelled

A list of counters is level where no two of them differ by more than one. It stays level where one is
added to a least counter. Nothing here is about any particular program.
-/

namespace DdingGameServer

namespace Levels

variable {l : List ℕ} {i : ℕ}

/-- Place `i` has a least counter. -/
def IsLeast (l : List ℕ) (i : ℕ) : Prop := ∃ c, l[i]? = some c ∧ ∀ x ∈ l, c ≤ x

/-- **No two counters differ by more than one.** -/
def Level (l : List ℕ) : Prop := ∀ a ∈ l, ∀ b ∈ l, a ≤ b + 1

instance : Decidable (IsLeast l i) :=
  decidable_of_iff (∃ c ∈ l[i]?, ∀ x ∈ l, c ≤ x) Iff.rfl

instance : Decidable (Level l) :=
  inferInstanceAs (Decidable (∀ a ∈ l, ∀ b ∈ l, a ≤ b + 1))

/-- Adding to one counter adds to the sum. -/
theorem sum_modify_add {α : Type*} [AddCommMonoid α] {l : List α} {i : ℕ} (h : i < l.length)
    (d : α) : (l.modify i (· + d)).sum = l.sum + d := by
  induction l generalizing i with
  | nil => exact absurd h (Nat.not_lt_zero i)
  | cons a l ih =>
    cases i with
    | zero =>
      simp only [List.modify_zero_cons, List.sum_cons]
      rw [add_assoc, add_comm d, ← add_assoc]
    | succ i =>
      simp only [List.modify_succ_cons, List.sum_cons]
      rw [ih (Nat.lt_of_succ_lt_succ h), add_assoc]

/-- What is in the list after one counter was raised. -/
theorem mem_modify {f : ℕ → ℕ} {x : ℕ} (h : x ∈ l.modify i f) :
    x ∈ l ∨ ∃ c, l[i]? = some c ∧ x = f c := by
  obtain ⟨j, hj⟩ := List.mem_iff_getElem?.mp h
  rw [List.getElem?_modify] at hj
  by_cases hij : i = j
  · subst hij
    simp only [if_true, Option.map_eq_map, Option.map_eq_some_iff] at hj
    obtain ⟨c, hc, rfl⟩ := hj
    exact .inr ⟨c, hc, rfl⟩
  · simp only [hij, if_false, Option.map_eq_map, Option.map_id'] at hj
    exact .inl (List.mem_of_getElem? hj)

/-- **Adding to a least counter keeps the counters level.** -/
theorem Level.modify (h : Level l) (hi : IsLeast l i) : Level (l.modify i (· + 1)) := by
  obtain ⟨c, hc, hleast⟩ := hi
  intro a ha b hb
  rcases mem_modify ha with ha | ⟨c', hc', rfl⟩
  · rcases mem_modify hb with hb | ⟨c', hc', rfl⟩
    · exact h a ha b hb
    · have hle := h a ha c' (List.mem_of_getElem? hc')
      omega
  · obtain rfl := Option.some.inj (hc.symm.trans hc')
    rcases mem_modify hb with hb | ⟨c', hc'', rfl⟩
    · have hle := hleast b hb
      omega
    · obtain rfl := Option.some.inj (hc.symm.trans hc'')
      omega

end Levels

end DdingGameServer
