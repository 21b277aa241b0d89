import Mathlib.Algebra.BigOperators.Group.List.Basic
import Mathlib.Data.List.Induction
import Mathlib.Data.Nat.ModEq
import Mathlib.Tactic.Common
/-!
# Accumulators that wrap around

A sum that is kept modulo `m` is read modulo `n`. The reading is that of the exact sum as long as
`n` divides what the wraps have taken away (`mod_mod_eq_iff`), so over a whole run only if the sum
never wraps or `n` divides `m` (`forall_prefix_iff`). Nothing here is about any particular program.
-/

namespace DdingGameServer

namespace Accumulator

variable {m n s : ℕ} {l : List ℕ}

/-- **What the wraps have taken away must not matter.** -/
theorem mod_mod_eq_iff : s % m % n = s % n ↔ n ∣ m * (s / m) := by
  have hsplit : s - s % m = m * (s / m) := by
    have hdiv := Nat.div_add_mod s m
    omega
  rw [← hsplit, ← Nat.modEq_iff_dvd' (Nat.mod_le s m)]
  exact Iff.rfl

/-- A sum that has not wrapped is exact. -/
theorem mod_mod_eq_of_lt (h : s < m) : s % m % n = s % n := by
  rw [Nat.mod_eq_of_lt h]

/-- And so is one whose wraps are round for the reader. -/
theorem mod_mod_eq_of_dvd (h : n ∣ m) : s % m % n = s % n :=
  Nat.mod_mod_of_dvd s h

/-- **The first wrap**: a sum of terms below `m` that reaches `m` does so by less than `m`. -/
theorem exists_prefix_div_eq_one (hm : 0 < m) (hlt : ∀ x ∈ l, x < m) (h : m ≤ l.sum) :
    ∃ p, p <+: l ∧ p.sum / m = 1 := by
  induction l using List.reverseRecOn with
  | nil => exact absurd h (Nat.not_le.mpr hm)
  | append_singleton l x ih =>
    have hx : x < m := hlt x (by simp)
    rw [List.sum_append, List.sum_singleton] at h
    rcases Nat.lt_or_ge l.sum m with hshort | hlong
    · refine ⟨l ++ [x], List.prefix_rfl, ?_⟩
      rw [List.sum_append, List.sum_singleton]
      exact Nat.div_eq_of_lt_le (by omega) (by omega)
    · obtain ⟨p, hp, hone⟩ := ih (fun y hy => hlt y (List.mem_append_left _ hy)) hlong
      exact ⟨p, hp.trans (List.prefix_append _ _), hone⟩

/-- **Over a whole run**, the reading is exact at every point only where it never wraps or `n`
divides `m`. -/
theorem forall_prefix_iff (hm : 0 < m) (hlt : ∀ x ∈ l, x < m) :
    (∀ p, p <+: l → p.sum % m % n = p.sum % n) ↔ n ∣ m ∨ l.sum < m := by
  constructor
  · intro h
    rcases Nat.lt_or_ge l.sum m with hshort | hlong
    · exact .inr hshort
    · obtain ⟨p, hp, hone⟩ := exists_prefix_div_eq_one hm hlt hlong
      have hdvd := mod_mod_eq_iff.mp (h p hp)
      rw [hone, Nat.mul_one] at hdvd
      exact .inl hdvd
  · rintro (hdvd | hshort) p hp
    · exact mod_mod_eq_of_dvd hdvd
    · obtain ⟨rest, rfl⟩ := hp
      rw [List.sum_append] at hshort
      exact mod_mod_eq_of_lt (by omega)

end Accumulator

end DdingGameServer
