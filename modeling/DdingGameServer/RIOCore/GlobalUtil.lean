import DdingGameServer.Common.IntegralType
/-!
# GlobalUtil — the guarded cast between integral types

`GuardIntegralTypeCasting` casts a value and compares the result with it. The comparison converts
both operands once more, so that it does not see a cast that changes the value by a multiple of the
common width. `isExact_iff` says which those are: between a signed and an unsigned type, where the
common type is the unsigned one.
-/

namespace DdingGameServer

namespace RIOCore

open IntegralType

/-- `GuardIntegralTypeCasting`: the `result` and what is returned. -/
def guardIntegralTypeCasting (fromType toType : IntegralType) (value : fromType.Value) :
    toType.Value × Bool :=
  let result := toType.convert value.val
  (result, result.equal value)

/-- **The guard is exact**: it returns true exactly where the result is the value. -/
def IsExact (fromType toType : IntegralType) (value : fromType.Value) : Prop :=
  (guardIntegralTypeCasting fromType toType value).2 = true ↔
    (guardIntegralTypeCasting fromType toType value).1.val = value.val

/-- A negative value meets an unsigned type that the comparison is made in. -/
def IsNegativeCast (fromType toType : IntegralType) (x : ℤ) : Prop :=
  fromType.isSigned = true ∧ toType.isSigned = false ∧ 32 ≤ toType.width ∧
    fromType.width ≤ toType.width ∧ x < 0

/-- A value of the unsigned type that the comparison is made in meets a signed type, and wraps
around to a negative one. -/
def IsOverflowingCast (fromType toType : IntegralType) (x : ℤ) : Prop :=
  fromType.isSigned = false ∧ toType.isSigned = true ∧ 32 ≤ fromType.width ∧
    toType.width ≤ fromType.width ∧ 2 ^ fromType.width - 2 ^ (toType.width - 1) ≤ x

variable {fromType toType : IntegralType} {value : fromType.Value} {x : ℤ}

/-- The cast changes a value and the comparison does not see it. -/
def IsUnseen (fromType toType : IntegralType) (x : ℤ) : Prop :=
  toType.wrap x ≡ x [ZMOD 2 ^ comparedWidth toType fromType] ∧ toType.wrap x ≠ x

/-- **The guard is exact where no change goes unseen**: a kept value is always seen to be kept. -/
theorem isExact_iff_not_isUnseen :
    IsExact fromType toType value ↔ ¬ IsUnseen fromType toType value.val := by
  unfold IsExact IsUnseen guardIntegralTypeCasting
  rw [equal_iff_modEq]
  constructor
  · rintro h ⟨hmod, hne⟩
    exact hne (h.mp hmod)
  · intro h
    refine ⟨fun hmod => by_contra fun hne => h ⟨hmod, hne⟩, fun heq => ?_⟩
    change toType.wrap value.val = value.val at heq
    change toType.wrap value.val ≡ value.val [ZMOD _]
    rw [heq]

/-- The signed and the unsigned type the operands are compared in. -/
def comparedType (fromType toType : IntegralType) (isSigned : Bool) : IntegralType :=
  ⟨comparedWidth toType fromType, isSigned, by unfold comparedWidth; omega⟩

/-- Two values of a type as wide as the comparison are told apart. -/
theorem not_isUnseen_of_inRange (isSigned : Bool)
    (h : (comparedType fromType toType isSigned).InRange x)
    (hresult : (comparedType fromType toType isSigned).InRange (toType.wrap x)) :
    ¬ IsUnseen fromType toType x :=
  fun ⟨hmod, hne⟩ => hne (hresult.eq_of_modEq h hmod)

theorem le_comparedWidth (fromType toType : IntegralType) : 32 ≤ comparedWidth toType fromType ∧
    toType.width ≤ comparedWidth toType fromType ∧
    fromType.width ≤ comparedWidth toType fromType := by
  unfold comparedWidth
  omega

/-- Between types of one signedness every change is seen. -/
theorem not_isUnseen_of_isSigned_eq (h : fromType.InRange x)
    (hsign : fromType.isSigned = toType.isSigned) : ¬ IsUnseen fromType toType x := by
  obtain ⟨-, hto, hfrom⟩ := le_comparedWidth fromType toType
  exact not_isUnseen_of_inRange fromType.isSigned (h.widen rfl hfrom)
    (inRange_wrap.widen hsign hto)

/-- From a signed type to an unsigned one a negative value goes unseen where the comparison is made
in the type cast to. -/
theorem isUnseen_iff_of_signed (h : fromType.InRange x) (hfrom : fromType.isSigned = true)
    (hto : toType.isSigned = false) :
    IsUnseen fromType toType x ↔ IsNegativeCast fromType toType x := by
  obtain ⟨h32, hto_le, hfrom_le⟩ := le_comparedWidth fromType toType
  have hresult : toType.InRange (toType.wrap x) := inRange_wrap
  constructor
  · intro hunseen
    have hneg : x < 0 := by
      by_contra hnonneg
      -- both are in the unsigned type of the comparison
      exact not_isUnseen_of_inRange false (h.widen_nonneg hfrom rfl hfrom_le (not_lt.mp hnonneg))
        (hresult.widen hto.symm hto_le) hunseen
    have hwidth : comparedWidth toType fromType ≤ toType.width := by
      by_contra hlt
      -- both are in the signed one
      exact not_isUnseen_of_inRange true (h.widen hfrom.symm hfrom_le)
        (hresult.widen_unsigned hto rfl (not_le.mp hlt)) hunseen
    exact ⟨hfrom, hto, h32.trans hwidth, hfrom_le.trans hwidth, hneg⟩
  · rintro ⟨-, -, hto32, hle, hneg⟩
    have hwidth : comparedWidth toType fromType = toType.width := by
      unfold comparedWidth
      omega
    refine ⟨hwidth ▸ wrap_modEq, fun heq => ?_⟩
    rw [inRange_unsigned hto, heq] at hresult
    omega

/-- From an unsigned type to a signed one a value that wraps around goes unseen where the comparison
is made in the type cast from. -/
theorem isUnseen_iff_of_unsigned (h : fromType.InRange x) (hfrom : fromType.isSigned = false)
    (hto : toType.isSigned = true) :
    IsUnseen fromType toType x ↔ IsOverflowingCast fromType toType x := by
  obtain ⟨h32, hto_le, hfrom_le⟩ := le_comparedWidth fromType toType
  have hresult : toType.InRange (toType.wrap x) := inRange_wrap
  rw [inRange_signed hto] at hresult
  have hx := (inRange_unsigned hfrom).mp h
  have hhalf := two_pow_width (t := toType)
  constructor
  · intro hunseen
    have hwidth : comparedWidth toType fromType = fromType.width := by
      by_contra hne
      -- both are in the signed type of the comparison
      have hlt : fromType.width < comparedWidth toType fromType :=
        lt_of_le_of_ne hfrom_le (Ne.symm hne)
      exact not_isUnseen_of_inRange true (h.widen_unsigned hfrom rfl hlt)
        (inRange_wrap.widen hto.symm hto_le) hunseen
    rw [hwidth] at h32 hto_le
    have hpow : (2 : ℤ) ^ toType.width ≤ 2 ^ fromType.width :=
      pow_le_pow_right₀ (by decide) hto_le
    obtain ⟨hmod, hne⟩ := hunseen
    rw [hwidth] at hmod
    have hneg : toType.wrap x < 0 := by
      by_contra hnonneg
      have hin : fromType.InRange (toType.wrap x) := (inRange_unsigned hfrom).mpr (by omega)
      exact hne (hin.eq_of_modEq h hmod)
    -- the value is the result and one turn of the unsigned type
    have hturn : toType.wrap x + 2 ^ fromType.width = x := by
      have hin : fromType.InRange (toType.wrap x + 2 ^ fromType.width) :=
        (inRange_unsigned hfrom).mpr (by omega)
      exact hin.eq_of_modEq h ((Int.add_modEq_right ..).trans hmod)
    exact ⟨hfrom, hto, h32, hto_le, by omega⟩
  · rintro ⟨-, -, hfrom32, hle, hover⟩
    have hwidth : comparedWidth toType fromType = fromType.width := by
      unfold comparedWidth
      omega
    have hdvd : (2 : ℤ) ^ toType.width ∣ 2 ^ fromType.width := pow_dvd_pow 2 hle
    have hturn : x - 2 ^ fromType.width ≡ x [ZMOD 2 ^ fromType.width] :=
      Int.modEq_iff_dvd.mpr ⟨1, by rw [mul_one, sub_sub_cancel]⟩
    have hwrap : toType.wrap x = x - 2 ^ fromType.width := by
      have hin : toType.InRange (x - 2 ^ fromType.width) :=
        (inRange_signed hto).mpr (by omega)
      exact inRange_wrap.eq_of_modEq hin (wrap_modEq.trans (hturn.of_dvd hdvd).symm)
    rw [IsUnseen, hwrap, hwidth]
    exact ⟨hturn, by omega⟩

/-- **The guarded cast is exact but for two kinds of values**: for all integral types and all
values, what it returns says whether the result is the value exactly where neither a negative value
meets the unsigned type of the comparison, nor a value of that type wraps around to a negative
one. -/
theorem isExact_iff (fromType toType : IntegralType) (value : fromType.Value) :
    IsExact fromType toType value ↔
      ¬ IsNegativeCast fromType toType value.val ∧
        ¬ IsOverflowingCast fromType toType value.val := by
  rw [isExact_iff_not_isUnseen, ← not_or, not_iff_not]
  cases hfrom : fromType.isSigned with
  | false =>
    have hnegative : ¬ IsNegativeCast fromType toType value.val := fun h =>
      absurd (hfrom.symm.trans h.1) (by decide)
    rw [or_iff_right hnegative]
    cases hto : toType.isSigned with
    | true => exact isUnseen_iff_of_unsigned value.inRange hfrom hto
    | false =>
      refine iff_of_false (not_isUnseen_of_isSigned_eq value.inRange (hfrom.trans hto.symm)) ?_
      exact fun h => absurd (hto.symm.trans h.2.1) (by decide)
  | true =>
    have hoverflowing : ¬ IsOverflowingCast fromType toType value.val := fun h =>
      absurd (hfrom.symm.trans h.1) (by decide)
    rw [or_iff_left hoverflowing]
    cases hto : toType.isSigned with
    | false => exact isUnseen_iff_of_signed value.inRange hfrom hto
    | true =>
      refine iff_of_false (not_isUnseen_of_isSigned_eq value.inRange (hfrom.trans hto.symm)) ?_
      exact fun h => absurd (hto.symm.trans h.2.1) (by decide)

/-- A narrow pair of types, where every change is seen. -/
example : (guardIntegralTypeCasting ⟨16, true, by decide⟩ ⟨8, false, by decide⟩
    ⟨-1, by decide⟩).2 = false := by
  decide

/-- **-1 is cast from `int` to `unsigned int`**, and the guard reports a kept value. -/
theorem not_isExact_minusOne :
    ¬ IsExact ⟨32, true, by decide⟩ ⟨32, false, by decide⟩ ⟨-1, by decide⟩ := by
  intro h
  exact absurd (h.mp (by decide)) (by decide)

end RIOCore

end DdingGameServer
