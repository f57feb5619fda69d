import LayoutConstraints.Attribute
import LayoutConstraints.Priority

/-!
# Constraints

A constraint is what an expression says about one element: one attribute
of it, related to a multiple of one attribute of a target plus a constant,
or to the constant alone. A constraint against a number has no target and
`notAnAttribute` on the right.

The text of a constraint is a row of words between single blanks:
`view1.left >= view2.right * 2 + 8 @750`, and for a number
`view1.width == 100`. A multiplier of one, a zero constant and a missing
priority are left out.

**Results.** `beq_iff`: two constraints are equal when all eight fields
are, numbers by arithmetic.
-/
namespace LayoutConstraints

/-- Mirrors `ConstraintRecord`. -/
structure Constraint (ε : Type) where
  element : ε
  sourceAttribute : Attribute
  relation : Relation
  target? : Option ε
  targetAttribute : Attribute
  multiplier : Double
  constant : Double
  priority? : Option Priority
  deriving DecidableEq, Repr

namespace Constraint

variable {ε : Type}

/-- Whether the right-hand side is the constant alone. Mirrors
`is_fixed_value`. -/
def isFixedValue (c : Constraint ε) : Bool :=
  c.target?.isNone && !c.targetAttribute.isReal

/-- The target is missing exactly where no attribute of it is named. -/
def Resolved (c : Constraint ε) : Prop := c.target? = none ↔ c.targetAttribute = .notAnAttribute

theorem Resolved.isFixedValue_iff {c : Constraint ε} (h : c.Resolved) :
    c.isFixedValue = true ↔ c.targetAttribute = .notAnAttribute := by
  have hreal : c.targetAttribute.isReal = false ↔ c.targetAttribute = .notAnAttribute := by
    rw [← Bool.not_eq_true, Attribute.isReal_iff, Decidable.not_not]
  rw [isFixedValue, Bool.and_eq_true, Bool.not_eq_true', Option.isNone_iff_eq_none, hreal]
  exact ⟨And.right, fun ha => ⟨h.2 ha, ha⟩⟩

/-! ## Equality -/

instance [BEq ε] : BEq (Constraint ε) where
  beq a b :=
    a.element == b.element && a.sourceAttribute == b.sourceAttribute &&
      a.relation == b.relation && a.target? == b.target? &&
      a.targetAttribute == b.targetAttribute && a.multiplier == b.multiplier &&
      a.constant == b.constant && a.priority? == b.priority?

theorem beq_iff [BEq ε] {a b : Constraint ε} :
    (a == b) = true ↔
      (a.element == b.element) = true ∧ a.sourceAttribute = b.sourceAttribute ∧
        a.relation = b.relation ∧ (a.target? == b.target?) = true ∧
        a.targetAttribute = b.targetAttribute ∧ (a.multiplier == b.multiplier) = true ∧
        (a.constant == b.constant) = true ∧ (a.priority? == b.priority?) = true := by
  show (_ && _) = true ↔ _
  simp only [Bool.and_eq_true, beq_iff_eq, and_assoc]

/-! ## Text -/

section Text

variable [ToString ε]

/-- An attribute of an element, as one word. -/
def anchorWord (element : ε) (a : Attribute) : String := s!"{element}.{a}"

def multiplierWords (c : Constraint ε) : List String :=
  if c.multiplier == .one then [] else ["*", toString c.multiplier]

/-- The constant behind its sign; nothing for a zero or a NaN. -/
def constantWords (c : Constraint ε) : List String :=
  if c.constant.isPositive then ["+", toString c.constant]
  else if c.constant.isNegative then ["-", toString (-c.constant)]
  else []

/-- The right-hand side: the target with its multiple and offset, or the
constant alone. -/
def rightWords (c : Constraint ε) : List String :=
  match c.target?, c.targetAttribute.isReal with
  | some target, true =>
    anchorWord target c.targetAttribute :: (c.multiplierWords ++ c.constantWords)
  | _, _ => [toString c.constant]

def priorityWords (c : Constraint ε) : List String :=
  match c.priority? with
  | some priority => [s!"@{priority}"]
  | none => []

def words (c : Constraint ε) : List String :=
  anchorWord c.element c.sourceAttribute :: toString c.relation :: (c.rightWords ++ c.priorityWords)

/-- Mirrors `Display`. -/
def text (c : Constraint ε) : String := " ".intercalate c.words

instance : ToString (Constraint ε) := ⟨text⟩

end Text

end Constraint

end LayoutConstraints
