/-!
# Binary floating-point numbers

A number of a format is NaN, or a sign with a magnitude. The magnitude is
the exponent and fraction fields read as one natural number, so that it
grows with the value it stands for, from `0` (zero) to `Format.infinity`.
Nothing shows which NaN a NaN is, so there is one.

Two comparisons live here. `=` is identity: `-0` differs from `0` and NaN
is itself. `==` and `compare?` are those of arithmetic: `-0 == 0`, and NaN
compares with nothing.

**Results.** `beq_iff` reads `==` off the place of a number on the line;
`beq_comm`, `beq_trans` and `beq_self_iff` make it a partial equivalence
whose only gap is NaN.
-/
namespace LayoutConstraints

-- A power of natural numbers is the one of core throughout the library, whatever
-- else is imported.
attribute [scoped instance (2000)] instPowNat

/-- A binary interchange format, by the widths of its two fields. -/
structure Format where
  exponentBits : Nat
  fractionBits : Nat
  deriving DecidableEq, Repr

namespace Format

def double : Format := ⟨11, 52⟩

def single : Format := ⟨8, 23⟩

def bias (F : Format) : Nat := 2 ^ (F.exponentBits - 1) - 1

/-- The magnitude of infinity: ones in the exponent, zeros in the fraction. -/
def infinity (F : Format) : Nat := (2 ^ F.exponentBits - 1) * 2 ^ F.fractionBits

/-- The weight of the sign in the bits of a number. -/
def signBit (F : Format) : Nat := 2 ^ (F.exponentBits + F.fractionBits)

end Format

inductive Binary (F : Format) where
  | nan
  | number (negative : Bool) (magnitude : Fin (F.infinity + 1))
  deriving DecidableEq, Repr

abbrev Double := Binary .double

abbrev Single := Binary .single

namespace Binary

variable {F : Format}

/-! ## Construction -/

/-- A magnitude past infinity is infinity. -/
def ofMagnitude (negative : Bool) (magnitude : Nat) : Binary F :=
  .number negative ⟨min magnitude F.infinity, Nat.lt_succ_of_le (Nat.min_le_right _ _)⟩

def zero : Binary F := .ofMagnitude false 0

def one : Binary F := .ofMagnitude false (F.bias * 2 ^ F.fractionBits)

def infinite (negative : Bool) : Binary F := .ofMagnitude negative F.infinity

/-- Bits above the sign are dropped; a magnitude past infinity is a NaN. -/
def ofBits (bits : Nat) : Binary F :=
  let magnitude := bits % F.signBit
  if h : magnitude ≤ F.infinity then
    .number (bits / F.signBit % 2 == 1) ⟨magnitude, Nat.lt_succ_of_le h⟩
  else
    .nan

/-- The bits of a number; a NaN has none of its own. -/
def toBits? : Binary F → Option Nat
  | nan => none
  | number negative magnitude => some (cond negative F.signBit 0 + magnitude)

/-! ## Kinds and sign -/

def isNaN : Binary F → Bool
  | nan => true
  | number .. => false

/-- Zero of either sign. -/
def isZero : Binary F → Bool
  | nan => false
  | number _ magnitude => magnitude.val == 0

def isFinite : Binary F → Bool
  | nan => false
  | number _ magnitude => magnitude.val != F.infinity

/-- Turns the sign, of zero too. -/
def neg : Binary F → Binary F
  | nan => nan
  | number negative magnitude => number (!negative) magnitude

instance : Neg (Binary F) := ⟨neg⟩

/-! ## Comparison -/

/-- Where a number stands on the line; both zeros stand at `0`. -/
def place : Binary F → Option Int
  | nan => none
  | number negative magnitude => some (cond negative (-(magnitude.val : Int)) magnitude.val)

instance : BEq (Binary F) where
  beq x y :=
    match x.place, y.place with
    | some a, some b => a == b
    | _, _ => false

def compare? (x y : Binary F) : Option Ordering :=
  match x.place, y.place with
  | some a, some b => some (compare a b)
  | _, _ => none

def isPositive (x : Binary F) : Bool := x.place.any (0 < ·)

def isNegative (x : Binary F) : Bool := x.place.any (· < 0)

theorem beq_iff {x y : Binary F} : (x == y) = true ↔ ∃ k, x.place = some k ∧ y.place = some k := by
  show (match x.place, y.place with | some a, some b => a == b | _, _ => false) = true ↔ _
  cases x.place with
  | none => simp
  | some a =>
    cases y.place with
    | none => simp
    | some b => exact ⟨fun h => ⟨b, congrArg some (eq_of_beq h), rfl⟩, by rintro ⟨k, ⟨⟩, ⟨⟩⟩; simp⟩

theorem place_isSome {x : Binary F} : x.place.isSome = !x.isNaN := by
  cases x <;> rfl

theorem beq_comm (x y : Binary F) : (x == y) = (y == x) := by
  rw [Bool.eq_iff_iff, beq_iff, beq_iff]
  exact ⟨fun ⟨k, hx, hy⟩ => ⟨k, hy, hx⟩, fun ⟨k, hx, hy⟩ => ⟨k, hy, hx⟩⟩

theorem beq_trans {x y z : Binary F} (hxy : (x == y) = true) (hyz : (y == z) = true) :
    (x == z) = true := by
  obtain ⟨k, hx, hy⟩ := beq_iff.1 hxy
  obtain ⟨l, hy', hz⟩ := beq_iff.1 hyz
  rw [hy] at hy'
  exact beq_iff.2 ⟨k, hx, hy' ▸ hz⟩

theorem beq_self_iff {x : Binary F} : (x == x) = true ↔ x.isNaN = false := by
  cases x <;> simp [beq_iff, place, isNaN]

theorem place_zero : (zero : Binary F).place = some 0 := by
  simp [zero, ofMagnitude, place]

/-- Zero of either sign is what equals zero. -/
theorem isZero_eq (x : Binary F) : x.isZero = (x == .zero) := by
  rw [Bool.eq_iff_iff, beq_iff, place_zero]
  cases x with
  | nan => simp [isZero, place]
  | number negative magnitude =>
    simp only [isZero, place, beq_iff_eq, Option.some.injEq, exists_eq_right']
    cases negative <;> simp only [cond_true, cond_false] <;> omega

theorem neg_neg (x : Binary F) : - -x = x := by
  cases x with
  | nan => rfl
  | number negative magnitude => cases negative <;> rfl

end Binary

end LayoutConstraints
