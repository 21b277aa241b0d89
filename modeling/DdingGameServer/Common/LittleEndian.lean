import Mathlib.Algebra.Order.Ring.Nat
/-!
# Little-endian numbers

`toBytes w n` is `n` on `w` bytes, least significant first; `ofBytes` reads such a list back. What
does not fit is dropped, and a shorter read sees the low bytes.
-/

namespace DdingGameServer

variable {v w n : ℕ}

/-- The `w` low bytes of `n`, least significant first. -/
def toBytes : ℕ → ℕ → List UInt8
  | 0, _ => []
  | w + 1, n => UInt8.ofNat n :: toBytes w (n / 256)

/-- The number a list of bytes stands for. -/
def ofBytes : List UInt8 → ℕ
  | [] => 0
  | b :: bs => b.toNat + 256 * ofBytes bs

@[simp] theorem length_toBytes : (toBytes w n).length = w := by
  induction w generalizing n with
  | zero => rfl
  | succ w ih => simp [toBytes, ih]

/-- **Reading back what was written** gives the part that fits. -/
theorem ofBytes_toBytes : ofBytes (toBytes w n) = n % 256 ^ w := by
  induction w generalizing n with
  | zero => simp [toBytes, ofBytes, Nat.mod_one]
  | succ w ih =>
    rw [toBytes, ofBytes, ih, pow_succ', Nat.mod_mul]
    rfl

/-- A wide number is its low bytes, then the rest. -/
theorem toBytes_add : toBytes (v + w) n = toBytes v n ++ toBytes w (n / 256 ^ v) := by
  induction v generalizing n with
  | zero => simp [toBytes]
  | succ v ih =>
    rw [Nat.succ_add, toBytes, toBytes, ih, Nat.div_div_eq_div_mul, pow_succ']
    rfl

end DdingGameServer
