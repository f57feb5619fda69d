import LayoutConstraints.Binary

/-!
# Rounding to a binary format

Every finite number is a whole count of the least positive number of its
format, which is `2 ^ -unitExponent`. `Format.units` is that count;
`Format.nearest` goes back from any fraction to the nearest magnitude, ties
to the even one. Reading a decimal, changing the width and taking a
reciprocal are exact fractions rounded once.

**Results.** `nearest_units`: rounding the exact value of a magnitude, as
any fraction, gives that magnitude back, so two magnitudes never have one
value (`units_injective`).
-/
namespace LayoutConstraints

/-- The whole number nearest to `num / den`, the even one of two. -/
def roundHalfEven (num den : Nat) : Nat :=
  let q := num / den
  let r := num % den
  if 2 * r < den then q
  else if den < 2 * r then q + 1
  else q + q % 2

theorem roundHalfEven_mul {den : Nat} (h : 0 < den) (n : Nat) :
    roundHalfEven (n * den) den = n := by
  simp [roundHalfEven, Nat.mul_div_cancel n h, h]

namespace Format

variable (F : Format)

def unitExponent : Nat := F.bias + F.fractionBits - 1

/-- The value of a magnitude, in units of the least positive number. -/
def units (magnitude : Nat) : Nat :=
  let exponent := magnitude / 2 ^ F.fractionBits
  let fraction := magnitude % 2 ^ F.fractionBits
  if exponent = 0 then fraction
  else (2 ^ F.fractionBits + fraction) * 2 ^ (exponent - 1)

/-- The magnitude nearest to `num / den` units. The exponent and the rounded
significand are added, so a significand that rounds up to the next power of
two moves into the exponent by itself. -/
def nearest (num den : Nat) : Nat :=
  let shift := (num / den).log2 - F.fractionBits
  shift * 2 ^ F.fractionBits + roundHalfEven num (den * 2 ^ shift)

theorem units_subnormal {magnitude : Nat} (h : magnitude / 2 ^ F.fractionBits = 0) :
    F.units magnitude = magnitude % 2 ^ F.fractionBits := by
  simp [units, h]

theorem units_normal {magnitude k : Nat} (h : magnitude / 2 ^ F.fractionBits = k + 1) :
    F.units magnitude = (2 ^ F.fractionBits + magnitude % 2 ^ F.fractionBits) * 2 ^ k := by
  simp [units, h]

theorem nearest_eq {num den shift : Nat} (h : (num / den).log2 - F.fractionBits = shift) :
    F.nearest num den =
      shift * 2 ^ F.fractionBits + roundHalfEven num (den * 2 ^ shift) := by
  subst h; rfl

theorem nearest_units (magnitude den : Nat) (h : 0 < den) :
    F.nearest (F.units magnitude * den) den = magnitude := by
  have hsplit := Nat.div_add_mod magnitude (2 ^ F.fractionBits)
  have hmod := Nat.mod_lt magnitude (Nat.two_pow_pos F.fractionBits)
  cases hk : magnitude / 2 ^ F.fractionBits with
  | zero =>
    have hshift : (magnitude % 2 ^ F.fractionBits).log2 - F.fractionBits = 0 := by
      by_cases hz : magnitude % 2 ^ F.fractionBits = 0
      · simp [hz]
      · exact Nat.sub_eq_zero_of_le (Nat.le_of_lt ((Nat.log2_lt hz).2 hmod))
    rw [F.units_subnormal hk, F.nearest_eq (by rw [Nat.mul_div_cancel _ h, hshift]), Nat.pow_zero,
      Nat.mul_one, roundHalfEven_mul h]
    rw [hk] at hsplit
    omega
  | succ k =>
    have hlog : ((2 ^ F.fractionBits + magnitude % 2 ^ F.fractionBits) * 2 ^ k).log2 =
        F.fractionBits + k := by
      rw [Nat.log2_eq_iff (Nat.mul_ne_zero (by omega) (Nat.ne_of_gt (Nat.two_pow_pos k))),
        Nat.pow_succ, Nat.pow_add, Nat.mul_right_comm]
      exact ⟨Nat.mul_le_mul_right _ (by omega),
        Nat.mul_lt_mul_of_pos_right (by omega) (Nat.two_pow_pos k)⟩
    rw [F.units_normal hk,
      F.nearest_eq (by rw [Nat.mul_div_cancel _ h, hlog, Nat.add_sub_cancel_left]),
      Nat.mul_assoc, Nat.mul_comm (2 ^ k), roundHalfEven_mul (Nat.mul_pos h (Nat.two_pow_pos k))]
    rw [hk, Nat.mul_succ, Nat.mul_comm] at hsplit
    omega

theorem units_injective {m n : Nat} (h : F.units m = F.units n) : m = n := by
  rw [← F.nearest_units m 1 Nat.one_pos, h, F.nearest_units n 1 Nat.one_pos]

end Format

namespace Binary

variable {F G : Format}

/-- The number nearest to `num / den`. -/
def ofRatio (negative : Bool) (num den : Nat) : Binary F :=
  .ofMagnitude negative (F.nearest (num * 2 ^ F.unitExponent) den)

/-- The number nearest to a whole number. -/
def ofInt (n : Int) : Binary F := .ofRatio (n < 0) n.natAbs 1

/-- The number nearest to `digits * 10 ^ exponent`. -/
def ofDecimal (negative : Bool) (digits : Nat) (exponent : Int) : Binary F :=
  .ofRatio negative (digits * 10 ^ exponent.toNat) (10 ^ (-exponent).toNat)

/-- The same number in another format, rounded where that format is narrower. -/
def convert : Binary F → Binary G
  | nan => nan
  | number negative magnitude =>
    if magnitude.val = F.infinity then infinite negative
    else ofRatio negative (F.units magnitude) (2 ^ F.unitExponent)

/-- One divided by a number; a zero gives the infinity of its sign, and back. -/
def reciprocal : Binary F → Binary F
  | nan => nan
  | number negative magnitude =>
    if magnitude.val = 0 then infinite negative
    else if magnitude.val = F.infinity then ofMagnitude negative 0
    else ofRatio negative (2 ^ F.unitExponent) (F.units magnitude)

end Binary

end LayoutConstraints
