import LayoutConstraints.Constraint

/-!
# The set of active constraints

An engine keeps the constraints in force, in the order in which they were
taken up, and counts the batches it was given. A constraint that equals an
active one is not taken up again; one that holds a NaN equals nothing, so
it is taken up each time and never dropped.

**Results.** `take_append`: taking up two batches in a row is taking up
one after the other.
-/
namespace LayoutConstraints

/-- Mirrors `RecordingSink`; of the batches only the number is kept. -/
structure Engine (ε : Type) where
  active : List (Constraint ε)
  batches : Nat

namespace Engine

variable {ε : Type} [BEq ε]

def empty : Engine ε := ⟨[], 0⟩

/-- Whether some active constraint equals this one. -/
def holds (active : List (Constraint ε)) (c : Constraint ε) : Bool := active.any (· == c)

def takeOne (active : List (Constraint ε)) (c : Constraint ε) : List (Constraint ε) :=
  if holds active c then active else active ++ [c]

def take (active batch : List (Constraint ε)) : List (Constraint ε) := batch.foldl takeOne active

def drop (active batch : List (Constraint ε)) : List (Constraint ε) :=
  active.filter fun c => !holds batch c

/-- A batch counts even if it is empty. -/
def activate (batch : List (Constraint ε)) (g : Engine ε) : Engine ε :=
  ⟨take g.active batch, g.batches + 1⟩

def deactivate (batch : List (Constraint ε)) (g : Engine ε) : Engine ε :=
  { g with active := drop g.active batch }

theorem take_append (active batch more : List (Constraint ε)) :
    take active (batch ++ more) = take (take active batch) more :=
  List.foldl_append

end Engine

end LayoutConstraints
