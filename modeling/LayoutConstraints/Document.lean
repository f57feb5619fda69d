import LayoutConstraints.Constraint

/-!
# Constraints as documents

A document is a JSON value. A number written without point or exponent is a
whole number and is kept exact while it fits into 64 bits; any other number
is a double. A double that is not finite has no JSON form and is written as
`null`.

A constraint is written as an object with one key per field, tokens as
their tags and an absent target or priority as `null`. Reading is wider
than writing:

* a token may also be an object whose only key is the tag, with `null`;
* keys may come in any order, unknown ones are passed over, and the target
  and the priority may be missing;
* the eight fields may stand in an array, in the order of `Constraint`;
* a number may be whole. It is rounded once, to the width that is asked for,
  where a double has been rounded before it is narrowed.
-/
namespace LayoutConstraints

inductive Document where
  | null
  | bool (value : Bool)
  | whole (value : Int)
  | number (value : Double)
  | text (value : String)
  | array (items : List Document)
  | object (fields : List (String × Document))
  deriving Inhabited, Repr

namespace Document

/-! ## Parts -/

/-- A number written without point or exponent: whole if it is below `2 ^ 64`
and not below `-2 ^ 63`. A minus zero is a double, since no whole number
holds its sign. -/
def ofDigits (negative : Bool) (digits : Nat) : Document :=
  match negative with
  | false =>
    if digits < 0x10000000000000000 then whole digits else number (.ofDecimal false digits 0)
  | true =>
    if 0 < digits ∧ digits ≤ 0x8000000000000000 then whole (-digits)
    else number (.ofDecimal true digits 0)

def ofDouble (x : Double) : Document := if x.isFinite then number x else null

def ofOption {α : Type} (write : α → Document) : Option α → Document
  | some a => write a
  | none => null

def double? : Document → Option Double
  | whole n => some (.ofInt n)
  | number x => some x
  | _ => none

def single? : Document → Option Single
  | whole n => some (.ofInt n)
  | number x => some x.convert
  | _ => none

def string? : Document → Option String
  | text s => some s
  | _ => none

/-- The spelling of a token: its tag, or its tag as the only key to `null`. -/
def tag? : Document → Option String
  | text s => some s
  | object [(key, null)] => some key
  | _ => none

/-- A value that may be missing or `null`. -/
def optional? {α : Type} (read : Document → Option α) : Option Document → Option (Option α)
  | none | some null => some none
  | some d => (read d).map some

/-- Mirrors the `deserialize` derived for `Attribute`. -/
def attribute? (d : Document) : Option Attribute :=
  d.tag?.bind fun s => Attribute.all.find? (·.tag == s)

/-- Mirrors the `deserialize` derived for `Relation`. -/
def relation? (d : Document) : Option Relation :=
  d.tag?.bind fun s => Relation.all.find? (·.tag == s)

/-- A number as a weight. Mirrors the `deserialize` derived for `Priority`. -/
def priority? (d : Document) : Option Priority := d.single?.map Priority.mk

end Document

namespace Constraint

/-- The priority is widened to a double. Mirrors the `serialize` derived for
`ConstraintRecord`. -/
def toDocument (c : Constraint String) : Document :=
  .object
    [("element", .text c.element),
      ("attribute", .text c.sourceAttribute.tag),
      ("relation", .text c.relation.tag),
      ("target", .ofOption .text c.target?),
      ("target_attribute", .text c.targetAttribute.tag),
      ("multiplier", .ofDouble c.multiplier),
      ("constant", .ofDouble c.constant),
      ("priority", .ofOption (fun p => .ofDouble p.weight.convert) c.priority?)]

/-- The constraint whose fields are looked up by name. -/
def ofFields? (field : String → Option Document) : Option (Constraint String) := do
  let element ← (← field "element").string?
  let sourceAttribute ← (← field "attribute").attribute?
  let relation ← (← field "relation").relation?
  let target? ← Document.optional? Document.string? (field "target")
  let targetAttribute ← (← field "target_attribute").attribute?
  let multiplier ← (← field "multiplier").double?
  let constant ← (← field "constant").double?
  let priority? ← Document.optional? Document.priority? (field "priority")
  return { element, sourceAttribute, relation, target?, targetAttribute, multiplier, constant,
           priority? }

/-- The names of the fields, in the order of the array form. -/
def fieldNames : List String :=
  ["element", "attribute", "relation", "target", "target_attribute", "multiplier", "constant",
    "priority"]

/-- Mirrors the `deserialize` derived for `ConstraintRecord`. -/
def ofDocument? : Document → Option (Constraint String)
  | .object fields => ofFields? (fields.lookup ·)
  | .array items =>
    if items.length = fieldNames.length then ofFields? ((fieldNames.zip items).lookup ·) else none
  | _ => none

end Constraint

end LayoutConstraints
