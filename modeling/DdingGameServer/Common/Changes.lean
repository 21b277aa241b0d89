import Mathlib.Data.List.Chain
/-!
# The values a variable takes

`Changes a l b` says that a variable went from `a` to `b` and that `l` is the list of the values it
was changed to, each different from the one before. It grows at the end, as a log does, and is read
from the front: neighbours differ, the first entry differs from `a`, and the last one is `b`.
-/

namespace DdingGameServer

universe u

variable {α : Type u} {a b c : α} {l : List α}

/-- **A log of changes** from `a` to `b`. -/
inductive Changes (a : α) : List α → α → Prop
  /-- Nothing has changed yet. -/
  | refl : Changes a [] a
  /-- A value other than the last is logged. -/
  | change {l : List α} {b c : α} : Changes a l b → c ≠ b → Changes a (l ++ [c]) c

namespace Changes

/-- A log ends in the value the variable has. -/
theorem getLast?_cons (h : Changes a l b) : (a :: l).getLast? = some b := by
  cases h with
  | refl => rfl
  | change h hne => rw [← List.cons_append, List.getLast?_concat]

theorem eq_getD_getLast? (h : Changes a l b) : b = l.getLast?.getD a := by
  have hlast := h.getLast?_cons
  rw [List.getLast?_cons] at hlast
  exact (Option.some.inj hlast).symm

/-- **Neighbours differ**, the value at the start included. -/
theorem isChain_cons (h : Changes a l b) : (a :: l).IsChain (· ≠ ·) := by
  induction h with
  | refl => exact List.isChain_singleton a
  | @change l b c h hne ih =>
    rw [← List.cons_append, List.isChain_append]
    refine ⟨ih, List.isChain_singleton c, fun x hx y hy => ?_⟩
    obtain rfl : c = y := by simpa using hy
    obtain rfl : b = x := Option.some.inj (h.getLast?_cons.symm.trans hx)
    exact hne.symm

theorem isChain (h : Changes a l b) : l.IsChain (· ≠ ·) :=
  (List.isChain_cons.mp h.isChain_cons).2

/-- The first entry is a change. -/
theorem ne_of_mem_head? (h : Changes a l b) (hc : c ∈ l.head?) : c ≠ a :=
  ((List.isChain_cons.mp h.isChain_cons).1 c hc).symm

end Changes

end DdingGameServer
