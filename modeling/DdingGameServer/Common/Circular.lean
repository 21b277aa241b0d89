import Mathlib.Data.Nat.ModEq
import Mathlib.Tactic.Common
/-!
# Circular buffers

A circular buffer has a number of cells, of which it uses some from its read position on; the free
ones begin at its write position, and both go round at the end. `gap` cells are never used: one,
where a full buffer is told from an empty one by its positions. What can be read or written in one
piece is a contiguous run, up to the end of the cells at most. Nothing here is about any particular
program.
-/

namespace DdingGameServer

/-- **A circular buffer**, by its positions. -/
structure Circular where
  capacity : ℕ
  gap : ℕ
  readPos : ℕ
  used : ℕ
  readPos_lt : readPos < capacity
  used_le : used + gap ≤ capacity

namespace Circular

variable (b : Circular)

def writePos : ℕ := (b.readPos + b.used) % b.capacity

def free : ℕ := b.capacity - b.gap - b.used

/-- The `n` cells from `p` on. -/
def Run (p n q : ℕ) : Prop := ∃ i < n, q = (p + i) % b.capacity

/-- The cell holds something. -/
def IsUsed (q : ℕ) : Prop := b.Run b.readPos b.used q

/-- The cell may be written. -/
def IsFree (q : ℕ) : Prop := b.Run b.writePos b.free q

/-- The length of the contiguous used run at the read position. -/
def contiguousUsed : ℕ := min b.used (b.capacity - b.readPos)

/-- The length of the contiguous free run at the write position. -/
def contiguousFree : ℕ := min b.free (b.capacity - b.writePos)

variable {b} {p n k q : ℕ}

theorem writePos_lt : b.writePos < b.capacity :=
  Nat.mod_lt _ (Nat.zero_lt_of_lt b.readPos_lt)

theorem used_add_free_le : b.used + b.free ≤ b.capacity := by
  have hle := b.used_le
  unfold free
  omega

/-- **A contiguous run** of the `n` cells from `p` on ends where the cells do or the buffer does. -/
theorem le_min_iff (hp : p < b.capacity) (hn : n ≤ b.capacity) :
    k ≤ min n (b.capacity - p) ↔ ∀ j < k, b.Run p n (p + j) := by
  constructor
  · intro hk j hj
    have hend : p + j < b.capacity := by omega
    exact ⟨j, by omega, (Nat.mod_eq_of_lt hend).symm⟩
  · intro h
    cases k with
    | zero => exact Nat.zero_le _
    | succ k =>
      -- the last cell of the run is one of the `n`, and it is not reached by going round
      obtain ⟨i, hi, heq⟩ := h k (Nat.lt_succ_self k)
      have hlt : (p + i) % b.capacity < b.capacity := Nat.mod_lt _ (by omega)
      rcases Nat.lt_or_ge (p + i) b.capacity with hshort | hround
      · rw [Nat.mod_eq_of_lt hshort] at heq
        omega
      · rw [Nat.mod_eq_sub_mod hround, Nat.mod_eq_of_lt (by omega)] at heq
        omega

/-- `contiguousUsed` is what its name says, -/
theorem le_contiguousUsed_iff : k ≤ b.contiguousUsed ↔ ∀ j < k, b.IsUsed (b.readPos + j) :=
  le_min_iff b.readPos_lt (Nat.le_of_add_right_le used_add_free_le)

/-- and so is `contiguousFree`. -/
theorem le_contiguousFree_iff : k ≤ b.contiguousFree ↔ ∀ j < k, b.IsFree (b.writePos + j) :=
  le_min_iff writePos_lt (by have hle := used_add_free_le (b := b); omega)

/-- **A free cell holds nothing.** -/
theorem IsFree.not_isUsed (h : b.IsFree q) : ¬ b.IsUsed q := by
  rintro ⟨i, hi, hused⟩
  obtain ⟨j, hj, hfree⟩ := h
  have hle := used_add_free_le (b := b)
  have hcell : (b.readPos + i) % b.capacity = (b.readPos + (b.used + j)) % b.capacity := by
    rw [← hused, hfree, writePos, Nat.mod_add_mod, Nat.add_assoc]
  have hmod : Nat.ModEq b.capacity i (b.used + j) := Nat.ModEq.add_left_cancel' b.readPos hcell
  have heq : i = b.used + j := hmod.eq_of_lt_of_lt (by omega) (by omega)
  omega

end Circular

end DdingGameServer
