import Mathlib

/-!
# Quotients in double precision

The ceiling of the double nearest to a quotient of two natural numbers: below `2 ^ 53` it is the ceiling of the
quotient itself.
-/

namespace Modelark.Library

/-- `a / b` rounded to the nearest number, and to the even one of two that are equally near. -/
def roundHalfEven (a b : Nat) : Nat :=
  if 2 * (a % b) < b then a / b
  else if b < 2 * (a % b) then a / b + 1
  else a / b + a / b % 2

/-- The ceiling of the double nearest to `a / b`. A double has 53 bits: the quotient is scaled until its first bit is
    the last but 52, and rounded there. -/
def ceilQuotient (a b : Nat) : Nat :=
  if a / b = 0 then min a 1
  else
    let exponent := Nat.log2 (a / b)
    let up := 52 - exponent
    let down := exponent - 52
    (roundHalfEven (a * 2 ^ up) (b * 2 ^ down) * 2 ^ down + (2 ^ up - 1)) / 2 ^ up

variable {a b : Nat}

theorem le_roundHalfEven : a / b ≤ roundHalfEven a b := by
  unfold roundHalfEven
  split_ifs <;> omega

theorem roundHalfEven_le : roundHalfEven a b ≤ a / b + 1 := by
  unfold roundHalfEven
  split_ifs <;> omega

theorem roundHalfEven_of_whole (pos : 0 < b) (whole : a % b = 0) : roundHalfEven a b = a / b := by
  rw [roundHalfEven, if_pos (by omega)]

theorem lt_roundHalfEven (more : b < 2 * (a % b)) : a / b < roundHalfEven a b := by
  rw [roundHalfEven, if_neg (by omega), if_pos more]
  exact Nat.lt_succ_self _

theorem ceil_div_eq (pos : 0 < b) : (a + b - 1) / b = if a % b = 0 then a / b else a / b + 1 := by
  have split := Nat.div_add_mod a b
  have less := Nat.mod_lt a pos
  split_ifs with whole
  · apply Nat.div_eq_of_lt_le
    · rw [Nat.mul_comm]
      omega
    · rw [Nat.add_mul, Nat.one_mul, Nat.mul_comm]
      omega
  · apply Nat.div_eq_of_lt_le
    · rw [Nat.add_mul, Nat.one_mul, Nat.mul_comm]
      omega
    · rw [Nat.add_mul, Nat.add_mul, Nat.one_mul, Nat.mul_comm]
      omega

theorem ceil_of_between {scaled power quotient : Nat} (pos : 0 < power) (low : quotient * power < scaled)
    (high : scaled ≤ (quotient + 1) * power) : (scaled + (power - 1)) / power = quotient + 1 := by
  apply Nat.div_eq_of_lt_le
  · rw [Nat.add_mul, Nat.one_mul]
    omega
  · rw [Nat.add_mul, Nat.add_mul, Nat.one_mul] at *
    omega

theorem mul_eq_scaled (power : Nat) : a * power = b * (a / b * power) + a % b * power := by
  conv_lhs => rw [← Nat.div_add_mod a b]
  ring

theorem mul_div_scaled (pos : 0 < b) (power : Nat) : a * power / b = a / b * power + a % b * power / b := by
  rw [mul_eq_scaled power, Nat.mul_add_div pos]

theorem mul_mod_scaled (power : Nat) : a * power % b = a % b * power % b := by
  rw [mul_eq_scaled power, Nat.mul_add_mod]

theorem two_pow_log2_mul_le (above : a / b ≠ 0) : 2 ^ Nat.log2 (a / b) * b ≤ a := by
  calc 2 ^ Nat.log2 (a / b) * b ≤ a / b * b := Nat.mul_le_mul_right b (Nat.log2_self_le above)
    _ ≤ a := Nat.div_mul_le_self a b

theorem log2_div_le (small : a < 2 ^ 53) (above : a / b ≠ 0) (pos : 0 < b) : Nat.log2 (a / b) ≤ 52 := by
  by_contra long
  have large : 2 ^ 53 ≤ 2 ^ Nat.log2 (a / b) := Nat.pow_le_pow_right (by decide) (by omega)
  have grows := Nat.le_mul_of_pos_right (2 ^ Nat.log2 (a / b)) pos
  have within := two_pow_log2_mul_le above
  omega

/-- The divisor is less than two units of the last bit of the quotient. -/
theorem lt_two_units (small : a < 2 ^ 53) (above : a / b ≠ 0) (pos : 0 < b) :
    b < 2 * 2 ^ (52 - Nat.log2 (a / b)) := by
  have bits := log2_div_le small above pos
  have within := two_pow_log2_mul_le above
  by_contra large
  have product := Nat.mul_le_mul_left (2 ^ Nat.log2 (a / b)) (Nat.le_of_not_lt large)
  have whole : 2 ^ Nat.log2 (a / b) * (2 * 2 ^ (52 - Nat.log2 (a / b))) = 2 ^ 53 := by
    rw [← Nat.pow_succ', ← Nat.pow_add]
    congr 1
    omega
  omega

/-- Rounding moves no quotient that is not whole to or past a whole number below it. -/
theorem lt_rounded {power : Nat} (pos : 0 < b) (fine : b < 2 * power) (broken : a % b ≠ 0) :
    a / b * power < roundHalfEven (a * power) b := by
  by_cases floor : a % b * power / b = 0
  · have part := (Nat.div_eq_zero_iff_lt pos).mp floor
    have more : b < 2 * (a * power % b) := by
      rw [mul_mod_scaled, Nat.mod_eq_of_lt part]
      have := Nat.le_mul_of_pos_left power (Nat.pos_of_ne_zero broken)
      omega
    have up := lt_roundHalfEven more
    rwa [mul_div_scaled pos, floor, Nat.add_zero] at up
  · have up := @le_roundHalfEven (a * power) b
    rw [mul_div_scaled pos] at up
    exact (Nat.lt_add_of_pos_right (Nat.pos_of_ne_zero floor)).trans_le up

theorem rounded_le {power : Nat} (pos : 0 < b) (unit : 0 < power) :
    roundHalfEven (a * power) b ≤ (a / b + 1) * power := by
  have part : a % b * power / b < power := by
    rw [Nat.div_lt_iff_lt_mul pos, Nat.mul_comm power b]
    exact Nat.mul_lt_mul_of_pos_right (Nat.mod_lt a pos) unit
  have up := @roundHalfEven_le (a * power) b
  rw [mul_div_scaled pos, Nat.add_assoc] at up
  rw [Nat.add_mul, Nat.one_mul]
  exact up.trans (Nat.add_le_add_left part _)

/-- Below `2 ^ 53` the ceiling is exact. -/
theorem ceilQuotient_eq (small : a < 2 ^ 53) (pos : 0 < b) : ceilQuotient a b = (a + b - 1) / b := by
  unfold ceilQuotient
  split_ifs with below
  · have less : a < b := (Nat.div_eq_zero_iff_lt pos).mp below
    rw [ceil_div_eq pos, Nat.mod_eq_of_lt less, below]
    split_ifs <;> omega
  · have unit : 0 < 2 ^ (52 - Nat.log2 (a / b)) := Nat.two_pow_pos _
    have fine := lt_two_units small below pos
    have bits := log2_div_le small below pos
    simp only [Nat.sub_eq_zero_of_le bits, Nat.pow_zero, Nat.mul_one]
    rw [ceil_div_eq pos]
    split_ifs with whole
    · have rounded : roundHalfEven (a * 2 ^ (52 - Nat.log2 (a / b))) b =
          a / b * 2 ^ (52 - Nat.log2 (a / b)) := by
        rw [roundHalfEven_of_whole pos (by rw [mul_mod_scaled, whole, Nat.zero_mul, Nat.zero_mod]),
          mul_div_scaled pos, whole, Nat.zero_mul, Nat.zero_div, Nat.add_zero]
      rw [rounded, Nat.mul_comm, Nat.mul_add_div unit, Nat.div_eq_of_lt (Nat.sub_lt unit Nat.one_pos),
        Nat.add_zero]
    · exact ceil_of_between unit (lt_rounded pos fine whole) (rounded_le pos unit)

/-- Above, a number may lie between two doubles. -/
example : ceilQuotient (2 ^ 53 + 1) 1 = 2 ^ 53 := by decide

end Modelark.Library
