import LayoutConstraints.Expression

/-!
# Ways to begin an expression

An expression begins blank, from a single attribute, from a group, or from
one of the compound layouts, each of which is a fixed group.
-/
namespace LayoutConstraints

/-- Layouts that relate several attributes at once, by the operations of these
names. -/
inductive Compound where
  | flush
  | flushToMargins
  | horizontal
  | horizontalMargins
  | vertical
  | verticalMargins
  | center
  | centerWithinMargins
  | size
  deriving DecidableEq, Repr

namespace Compound

def attributes : Compound → List Attribute
  | flush | flushToMargins => [.top, .left, .bottom, .right]
  | horizontal | horizontalMargins => [.left, .right]
  | vertical | verticalMargins => [.top, .bottom]
  | center | centerWithinMargins => [.centerX, .centerY]
  | size => [.height, .width]

/-- The attributes of the target, where they are not the same ones. -/
def others : Compound → Option (List Attribute)
  | flushToMargins => some [.topMargin, .leftMargin, .bottomMargin, .rightMargin]
  | horizontalMargins => some [.leftMargin, .rightMargin]
  | verticalMargins => some [.topMargin, .bottomMargin]
  | centerWithinMargins => some [.centerXWithinMargins, .centerYWithinMargins]
  | flush | horizontal | vertical | center | size => none

theorem length_others {c : Compound} {others : List Attribute} (h : c.others = some others) :
    others.length = c.attributes.length := by
  revert h; cases c <;> simp only [Compound.others, attributes] <;> rintro ⟨⟩ <;> rfl

end Compound

inductive Start where
  | blank
  | single (a : Attribute)
  | group (group : List Attribute) (other : Option (List Attribute))
  | compound (layout : Compound)
  deriving DecidableEq, Repr

def Start.expression {ε : Type} : Start → Expression ε
  | blank => .blank
  | single a => .ofAttribute a
  | group as other => .ofGroup as other
  | compound c => .ofGroup c.attributes c.others

end LayoutConstraints
