import Mathlib.Data.Int.ModEq
import Mathlib.Algebra.Order.Ring.Int
import Mathlib.Data.Int.Order.Basic
/-!
# Integral types and the conversions between them

An integral type is a width and a signedness, and its values are the integers it represents. A
value is converted to a type by taking the representative of the type that is congruent to it modulo
`2 ^ width`; an operator with two operands first promotes both and then converts both to a common
type. `==` so compares the operands modulo the common width, `equal_iff_modEq`: two integers that
differ by a multiple of it are equal to it.
-/

namespace DdingGameServer

/-- **An integral type.** -/
structure IntegralType where
  width : ℕ
  isSigned : Bool
  width_pos : 0 < width

namespace IntegralType

variable (t a b : IntegralType)

/-- The least value of the type. -/
def least : ℤ :=
  if t.isSigned = true then -2 ^ (t.width - 1) else 0

/-- The integers of the type: `2 ^ width` of them, from the least one on. -/
def InRange (x : ℤ) : Prop := t.least ≤ x ∧ x < t.least + 2 ^ t.width

instance (x : ℤ) : Decidable (t.InRange x) := inferInstanceAs (Decidable (_ ∧ _))

/-- **A value of the type.** -/
structure Value where
  val : ℤ
  inRange : t.InRange val

/-- The representative of `x` in the type. -/
def wrap (x : ℤ) : ℤ := t.least + (x - t.least) % 2 ^ t.width

variable {t a b} {x y : ℤ}

/-- The representative is a value, -/
theorem inRange_wrap : t.InRange (t.wrap x) := by
  have hpos : (0 : ℤ) < 2 ^ t.width := Int.pow_pos (by decide)
  have hnonneg := Int.emod_nonneg (x - t.least) hpos.ne'
  have hlt := Int.emod_lt_of_pos (x - t.least) hpos
  exact ⟨by unfold wrap; omega, by unfold wrap; omega⟩

/-- congruent to what it stands for. -/
theorem wrap_modEq : t.wrap x ≡ x [ZMOD 2 ^ t.width] := by
  have h := (Int.mod_modEq (x - t.least) (2 ^ t.width)).add_left t.least
  rwa [add_sub_cancel] at h

/-- A value is its own representative, -/
theorem wrap_of_inRange (h : t.InRange x) : t.wrap x = x := by
  obtain ⟨hmin, hmax⟩ := h
  rw [wrap, Int.emod_eq_of_lt (by omega) (by omega), add_sub_cancel]

/-- and congruent integers have the same one. -/
theorem wrap_eq_wrap_iff : t.wrap x = t.wrap y ↔ x ≡ y [ZMOD 2 ^ t.width] := by
  constructor
  · intro h
    have hy : t.wrap x ≡ y [ZMOD 2 ^ t.width] := h ▸ wrap_modEq
    exact wrap_modEq.symm.trans hy
  · intro h
    have hmod := h.sub_right t.least
    unfold wrap
    rw [hmod.eq]

/-- **Two values of a type that are congruent are one.** -/
theorem InRange.eq_of_modEq (hx : t.InRange x) (hy : t.InRange y)
    (h : x ≡ y [ZMOD 2 ^ t.width]) : x = y := by
  rw [← wrap_of_inRange hx, ← wrap_of_inRange hy, wrap_eq_wrap_iff]
  exact h

theorem two_pow_width : (2 : ℤ) ^ t.width = 2 * 2 ^ (t.width - 1) := by
  have hwidth : t.width - 1 + 1 = t.width := Nat.sub_add_cancel t.width_pos
  rw [← pow_succ', hwidth]

/-- The integers of a signed type, -/
theorem inRange_signed (h : t.isSigned = true) :
    t.InRange x ↔ -2 ^ (t.width - 1) ≤ x ∧ x < 2 ^ (t.width - 1) := by
  have hhalf := two_pow_width (t := t)
  unfold InRange least
  rw [if_pos h]
  omega

/-- and of an unsigned one. -/
theorem inRange_unsigned (h : t.isSigned = false) : t.InRange x ↔ 0 ≤ x ∧ x < 2 ^ t.width := by
  unfold InRange least
  rw [if_neg (by rw [h]; decide), zero_add]

/-- A wider type of the same signedness has all of them, -/
theorem InRange.widen (h : t.InRange x) (hsign : a.isSigned = t.isSigned)
    (hwidth : t.width ≤ a.width) : a.InRange x := by
  cases hs : t.isSigned with
  | true =>
    rw [inRange_signed hs] at h
    rw [inRange_signed (hsign.trans hs)]
    have hpow : (2 : ℤ) ^ (t.width - 1) ≤ 2 ^ (a.width - 1) :=
      pow_le_pow_right₀ (by decide) (by omega)
    omega
  | false =>
    rw [inRange_unsigned hs] at h
    rw [inRange_unsigned (hsign.trans hs)]
    have hpow : (2 : ℤ) ^ t.width ≤ 2 ^ a.width := pow_le_pow_right₀ (by decide) hwidth
    omega

/-- and a strictly wider signed type those of an unsigned one. -/
theorem InRange.widen_unsigned (h : t.InRange x) (ht : t.isSigned = false)
    (ha : a.isSigned = true) (hwidth : t.width < a.width) : a.InRange x := by
  rw [inRange_unsigned ht] at h
  rw [inRange_signed ha]
  have hpow : (2 : ℤ) ^ t.width ≤ 2 ^ (a.width - 1) :=
    pow_le_pow_right₀ (by decide) (by omega)
  omega

/-- What an unsigned type at least as wide has of a signed one is not negative. -/
theorem InRange.widen_nonneg (h : t.InRange x) (ht : t.isSigned = true)
    (ha : a.isSigned = false) (hwidth : t.width ≤ a.width) (hnonneg : 0 ≤ x) : a.InRange x := by
  rw [inRange_signed ht] at h
  rw [inRange_unsigned ha]
  have hpow : (2 : ℤ) ^ (t.width - 1) ≤ 2 ^ a.width :=
    pow_le_pow_right₀ (by decide) (by omega)
  omega

variable (t a b)

/-- The value of `t` that `x` is converted to. -/
def convert (x : ℤ) : t.Value := ⟨t.wrap x, inRange_wrap⟩

/-- `int`. -/
def int : IntegralType := ⟨32, true, by decide⟩

/-- The integral promotion. -/
def promote : IntegralType := if t.width < 32 then int else t

/-- The common type of two promoted operands: the wider of the two, and of two equally wide ones the
unsigned. -/
def common : IntegralType :=
  if a.isSigned = b.isSigned then
    if a.width ≤ b.width then b else a
  else if a.isSigned = true then
    if a.width ≤ b.width then b else a
  else
    if b.width ≤ a.width then a else b

/-- The usual arithmetic conversions. -/
def usualArithmetic : IntegralType := common a.promote b.promote

variable {a b}

/-- `==`: promotion keeps the operands, and both are wrapped into the common type. -/
def Value.equal (v : a.Value) (w : b.Value) : Bool :=
  decide ((usualArithmetic a b).wrap v.val = (usualArithmetic a b).wrap w.val)

variable (a b) in
/-- The width two operands are compared at. -/
def comparedWidth : ℕ := max 32 (max a.width b.width)

theorem width_promote : t.promote.width = max 32 t.width := by
  unfold promote
  split_ifs with h
  · exact (max_eq_left h.le).symm
  · exact (max_eq_right (not_lt.mp h)).symm

/-- The common type is as wide as the wider operand. -/
theorem width_common : (common a b).width = max a.width b.width := by
  unfold common
  split_ifs <;> omega

theorem width_usualArithmetic : (usualArithmetic a b).width = comparedWidth a b := by
  rw [usualArithmetic, width_common, width_promote, width_promote, comparedWidth]
  omega

/-- **Operands are compared modulo the common width.** -/
theorem equal_iff_modEq {v : a.Value} {w : b.Value} :
    v.equal w = true ↔ v.val ≡ w.val [ZMOD 2 ^ comparedWidth a b] := by
  rw [Value.equal, decide_eq_true_iff, wrap_eq_wrap_iff, width_usualArithmetic]

end IntegralType

end DdingGameServer
