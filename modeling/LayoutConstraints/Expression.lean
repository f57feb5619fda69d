import LayoutConstraints.Attribute
import LayoutConstraints.Priority

/-!
# Layout expressions

A layout expression is one relationship between attributes of an element
(the left-hand side) and attributes of a target (the right-hand side), not
yet bound to an element. Each side is a single attribute or a group; a
group stands for parallel relationships, paired by position.

What a field leaves unset has a reading: no relation reads as `==`, no
multiplier as `1`, no target as the container of the element, and no
right-hand side as the left-hand one. An unset field still differs from
one set to its reading under `==`.

Where a definition stands for an operation of the layout interface under
another name, here and in the modules that build on this one, its comment
says which one it mirrors.

**Results.** `beq_iff`: two expressions are equal when all nine fields are,
numbers by arithmetic.
-/
namespace LayoutConstraints

/-- Mirrors `LayoutExpression`. -/
structure Expression (ε : Type) where
  attribute? : Option Attribute
  group? : Option (List Attribute)
  relation? : Option Relation
  target? : Option ε
  otherAttribute? : Option Attribute
  otherGroup? : Option (List Attribute)
  multiplier? : Option Double
  constant : Double
  priority? : Option Priority
  deriving DecidableEq, Repr

namespace Expression

variable {ε : Type}

/-! ## Beginnings -/

/-- No attribute at all; such an expression cannot be compiled. Mirrors
`default`. -/
def blank : Expression ε where
  attribute? := none
  group? := none
  relation? := none
  target? := none
  otherAttribute? := none
  otherGroup? := none
  multiplier? := none
  constant := .zero
  priority? := none

/-- Mirrors `new`. -/
def ofAttribute (a : Attribute) : Expression ε :=
  { blank with attribute? := some a }

/-- A group, paired with the other group where there is one. Mirrors
`with_attributes`. -/
def ofGroup (group : List Attribute) (other : Option (List Attribute)) : Expression ε :=
  { blank with group? := some group, otherGroup? := other }

/-! ## Readings -/

def relation (e : Expression ε) : Relation := e.relation?.getD default

def multiplier (e : Expression ε) : Double := e.multiplier?.getD .one

/-- The left-hand attributes: the group before the single one. Mirrors
`source_attributes`. -/
def sources? (e : Expression ε) : Option (List Attribute) :=
  match e.group?, e.attribute? with
  | some as, _ => some as
  | none, some a => some [a]
  | none, none => none

/-- The right-hand attributes: the group before the single one, and where
neither is set the left-hand ones, there the single one first. Mirrors
`target_attributes`. -/
def targets (e : Expression ε) : List Attribute :=
  match e.otherGroup?, e.otherAttribute?, e.attribute?, e.group? with
  | some bs, _, _, _ => bs
  | none, some b, _, _ => [b]
  | none, none, some a, _ => [a]
  | none, none, none, some as => as
  | none, none, none, none => []

/-! ## Equality -/

instance [BEq ε] : BEq (Expression ε) where
  beq a b :=
    a.attribute? == b.attribute? && a.group? == b.group? && a.relation? == b.relation? &&
      a.target? == b.target? && a.otherAttribute? == b.otherAttribute? &&
      a.otherGroup? == b.otherGroup? && a.multiplier? == b.multiplier? &&
      a.constant == b.constant && a.priority? == b.priority?

theorem beq_iff [BEq ε] {a b : Expression ε} :
    (a == b) = true ↔
      a.attribute? = b.attribute? ∧ a.group? = b.group? ∧ a.relation? = b.relation? ∧
        (a.target? == b.target?) = true ∧ a.otherAttribute? = b.otherAttribute? ∧
        a.otherGroup? = b.otherGroup? ∧ (a.multiplier? == b.multiplier?) = true ∧
        (a.constant == b.constant) = true ∧ (a.priority? == b.priority?) = true := by
  show (_ && _) = true ↔ _
  simp only [Bool.and_eq_true, beq_iff_eq, and_assoc]

end Expression

end LayoutConstraints
