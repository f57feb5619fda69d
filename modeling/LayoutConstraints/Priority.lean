import LayoutConstraints.Decimal

/-!
# Priorities

How much a constraint matters against others, as a single-precision weight.
Priorities compare as their weights do, so one that is NaN equals nothing.
-/
namespace LayoutConstraints

structure Priority where
  weight : Single
  deriving DecidableEq, Repr

namespace Priority

def ofNat (n : Nat) : Priority := ⟨.ofRatio false n 1⟩

def required : Priority := ofNat 1000

def defaultHigh : Priority := ofNat 750

def defaultLow : Priority := ofNat 250

/-- The weight of fitting an element to its contents. -/
def fittingSize : Priority := ofNat 50

instance : BEq Priority := ⟨fun p q => p.weight == q.weight⟩

def compare? (p q : Priority) : Option Ordering := p.weight.compare? q.weight

instance : ToString Priority := ⟨fun p => p.weight.text⟩

theorem beq_def (p q : Priority) : (p == q) = (p.weight == q.weight) := rfl

end Priority

end LayoutConstraints
