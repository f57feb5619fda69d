/-!
# Attribute and relation tokens

An attribute names one edge, size, centre or baseline of an element; a
relation says how the two sides of a constraint compare. Both are closed
sets of tokens, each with two spellings:

* `label` (for a relation `symbol`) is what is printed;
* `tag` is what stands for the token in a document.

`Attribute.notAnAttribute` marks a right-hand side that is a bare number.
-/
namespace LayoutConstraints

/-! ## Attributes -/

inductive Attribute where
  | left
  | right
  | top
  | bottom
  | leading
  | trailing
  | width
  | height
  | centerX
  | centerY
  | baseline
  | firstBaseline
  | leftMargin
  | rightMargin
  | topMargin
  | bottomMargin
  | leadingMargin
  | trailingMargin
  | centerXWithinMargins
  | centerYWithinMargins
  | notAnAttribute
  deriving DecidableEq, Repr

namespace Attribute

def all : List Attribute :=
  [left, right, top, bottom, leading, trailing, width, height, centerX, centerY, baseline,
    firstBaseline, leftMargin, rightMargin, topMargin, bottomMargin, leadingMargin,
    trailingMargin, centerXWithinMargins, centerYWithinMargins, notAnAttribute]

/-- Mirrors `name`. -/
def label : Attribute → String
  | left => "left"
  | right => "right"
  | top => "top"
  | bottom => "bottom"
  | leading => "leading"
  | trailing => "trailing"
  | width => "width"
  | height => "height"
  | centerX => "centerX"
  | centerY => "centerY"
  | baseline => "baseline"
  | firstBaseline => "firstBaseline"
  | leftMargin => "leftMargin"
  | rightMargin => "rightMargin"
  | topMargin => "topMargin"
  | bottomMargin => "bottomMargin"
  | leadingMargin => "leadingMargin"
  | trailingMargin => "trailingMargin"
  | centerXWithinMargins => "centerXWithinMargins"
  | centerYWithinMargins => "centerYWithinMargins"
  | notAnAttribute => "notAnAttribute"

instance : ToString Attribute := ⟨label⟩

def tag : Attribute → String
  | left => "Left"
  | right => "Right"
  | top => "Top"
  | bottom => "Bottom"
  | leading => "Leading"
  | trailing => "Trailing"
  | width => "Width"
  | height => "Height"
  | centerX => "CenterX"
  | centerY => "CenterY"
  | baseline => "Baseline"
  | firstBaseline => "FirstBaseline"
  | leftMargin => "LeftMargin"
  | rightMargin => "RightMargin"
  | topMargin => "TopMargin"
  | bottomMargin => "BottomMargin"
  | leadingMargin => "LeadingMargin"
  | trailingMargin => "TrailingMargin"
  | centerXWithinMargins => "CenterXWithinMargins"
  | centerYWithinMargins => "CenterYWithinMargins"
  | notAnAttribute => "NotAnAttribute"

/-- Every token but the one that stands for a bare number. Mirrors
`is_attribute`. -/
def isReal : Attribute → Bool
  | notAnAttribute => false
  | _ => true

/-- Attributes that are measured at the margins of an element. -/
def isMargin : Attribute → Bool
  | leftMargin | rightMargin | topMargin | bottomMargin | leadingMargin | trailingMargin
  | centerXWithinMargins | centerYWithinMargins => true
  | _ => false

def isDimension : Attribute → Bool
  | width | height => true
  | _ => false

theorem mem_all (a : Attribute) : a ∈ all := by
  cases a <;> decide

theorem isReal_iff {a : Attribute} : a.isReal = true ↔ a ≠ notAnAttribute := by
  cases a <;> decide

theorem label_injective {a b : Attribute} (h : a.label = b.label) : a = b := by
  revert h; cases a <;> cases b <;> decide

theorem tag_injective {a b : Attribute} (h : a.tag = b.tag) : a = b := by
  revert h; cases a <;> cases b <;> decide

end Attribute

/-! ## Relations -/

inductive Relation where
  | equal
  | greaterOrEqual
  | lessOrEqual
  deriving DecidableEq, Repr

namespace Relation

/-- The relation of an expression that sets none. -/
instance : Inhabited Relation := ⟨equal⟩

def all : List Relation := [equal, greaterOrEqual, lessOrEqual]

def symbol : Relation → String
  | equal => "=="
  | greaterOrEqual => ">="
  | lessOrEqual => "<="

instance : ToString Relation := ⟨symbol⟩

def tag : Relation → String
  | equal => "Equal"
  | greaterOrEqual => "GreaterOrEqual"
  | lessOrEqual => "LessOrEqual"

theorem mem_all (r : Relation) : r ∈ all := by
  cases r <;> decide

theorem symbol_injective {r s : Relation} (h : r.symbol = s.symbol) : r = s := by
  revert h; cases r <;> cases s <;> decide

theorem tag_injective {r s : Relation} (h : r.tag = s.tag) : r = s := by
  revert h; cases r <;> cases s <;> decide

end Relation

end LayoutConstraints
