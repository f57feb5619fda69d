import LayoutConstraints.Binary.Rounding

/-!
# Decimal text of numbers

A finite number is written with the fewest decimal digits that read back to
it in its own format, the nearest of those to its value, a tie going up.
The digits are laid out in full: no exponent, no point after a whole
number. NaN and the infinities have names.

`Format.shortest` looks at ever finer decimal grids, from the grid of the
leading digit down to one that holds the value itself, and takes the first
point that reads back. Only the two points around the value can be the
nearest on a grid.

**Results.** `reads_shortest`: the chosen digits read back, so two
magnitudes of one format never share them (`shortest_injective`).
-/
namespace LayoutConstraints

/-- The value `digits * 10 ^ exponent`. -/
structure Decimal where
  digits : Nat
  exponent : Int
  deriving DecidableEq, Repr

namespace Decimal

/-- The digits in positional notation. -/
def positional : Decimal → List Char
  | ⟨digits, .ofNat zeros⟩ => Nat.toDigits 10 digits ++ List.replicate zeros '0'
  | ⟨digits, .negSucc n⟩ =>
    let places := n + 1
    let written := Nat.toDigits 10 digits
    let padded := List.replicate (places + 1 - written.length) '0' ++ written
    let whole := padded.length - places
    padded.take whole ++ '.' :: padded.drop whole

/-- The point around `num / den` on the grid of step `10 ^ exponent` that is
accepted: of two the nearer, and of two equally near the upper. -/
def around (accepts : Decimal → Bool) (num den : Nat) (exponent : Int) : Option Decimal :=
  let n := num * 10 ^ (-exponent).toNat
  let d := den * 10 ^ exponent.toNat
  let lower : Decimal := ⟨n / d, exponent⟩
  let upper : Decimal := ⟨n / d + 1, exponent⟩
  if accepts lower && accepts upper then
    some (if 2 * (n % d) < d then lower else upper)
  else if accepts lower then some lower
  else if accepts upper then some upper
  else none

/-- The first accepted point on the grids `start`, `start - 1`, … -/
def search (accepts : Decimal → Bool) (num den : Nat) : Nat → Int → Option Decimal
  | 0, exponent => around accepts num den exponent
  | more + 1, exponent =>
    match around accepts num den exponent with
    | some d => some d
    | none => search accepts num den more (exponent - 1)

theorem accepts_around {accepts : Decimal → Bool} {num den : Nat} {exponent : Int} {d : Decimal}
    (h : around accepts num den exponent = some d) : accepts d = true := by
  simp only [around] at h
  split at h
  · next hboth =>
    rw [Bool.and_eq_true] at hboth
    split at h
    · exact Option.some.inj h ▸ hboth.1
    · exact Option.some.inj h ▸ hboth.2
  · split at h
    · next hl => exact Option.some.inj h ▸ hl
    · split at h
      · next hu => exact Option.some.inj h ▸ hu
      · cases h

theorem accepts_search {accepts : Decimal → Bool} {num den : Nat} {d : Decimal} :
    ∀ {more : Nat} {exponent : Int},
      search accepts num den more exponent = some d → accepts d = true
  | 0, _, h => accepts_around h
  | more + 1, exponent, h => by
    unfold search at h
    split at h
    · next hd => exact accepts_around (hd.trans h)
    · exact accepts_search h

end Decimal

namespace Format

variable (F : Format)

/-- The magnitude nearest to a decimal. -/
def nearestDecimal (d : Decimal) : Nat :=
  F.nearest (d.digits * 10 ^ d.exponent.toNat * 2 ^ F.unitExponent) (10 ^ (-d.exponent).toNat)

def reads (magnitude : Nat) (d : Decimal) : Bool := F.nearestDecimal d == magnitude

/-- The value of a magnitude with all its digits: a unit is
`5 ^ unitExponent` steps of `10 ^ -unitExponent`. -/
def exact (magnitude : Nat) : Decimal :=
  ⟨F.units magnitude * 5 ^ F.unitExponent, -F.unitExponent⟩

/-- The shortest decimal of a magnitude. The last grid of the search holds
the exact value, which is the answer if all else fails. -/
def shortest (magnitude : Nat) : Decimal :=
  let num := F.units magnitude
  let den := 2 ^ F.unitExponent
  let start := (Nat.toDigits 10 (num / den)).length - 1
  (Decimal.search (F.reads magnitude) num den (start + F.unitExponent) start).getD
    (F.exact magnitude)

theorem reads_exact (magnitude : Nat) : F.reads magnitude (F.exact magnitude) = true := by
  have h10 : 5 ^ F.unitExponent * 2 ^ F.unitExponent = 10 ^ F.unitExponent :=
    (Nat.mul_pow 5 2 F.unitExponent).symm
  simp only [reads, nearestDecimal, exact, Int.neg_neg, Int.toNat_natCast, Int.toNat_neg_natCast,
    Nat.pow_zero, Nat.mul_one, Nat.mul_assoc, h10, beq_iff_eq]
  exact F.nearest_units magnitude _ (Nat.pow_pos (by decide))

theorem reads_shortest (magnitude : Nat) : F.reads magnitude (F.shortest magnitude) = true := by
  simp only [shortest]
  cases h : Decimal.search (F.reads magnitude) (F.units magnitude) (2 ^ F.unitExponent) _ _ with
  | none => exact F.reads_exact magnitude
  | some d => exact Decimal.accepts_search h

theorem shortest_injective {m n : Nat} (h : F.shortest m = F.shortest n) : m = n := by
  have hm := F.reads_shortest m
  have hn := F.reads_shortest n
  rw [h] at hm
  exact (eq_of_beq hm).symm.trans (eq_of_beq hn)

end Format

namespace Binary

variable {F : Format}

/-- The digits of a magnitude, or the name of infinity. -/
def digits (magnitude : Fin (F.infinity + 1)) : List Char :=
  if magnitude.val = F.infinity then ['i', 'n', 'f'] else (F.shortest magnitude).positional

def text : Binary F → String
  | nan => "NaN"
  | number true magnitude => .ofList ('-' :: digits magnitude)
  | number false magnitude => .ofList (digits magnitude)

instance : ToString (Binary F) := ⟨text⟩

end Binary

end LayoutConstraints
