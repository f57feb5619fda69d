import LayoutConstraints.Expression.Step
import Mathlib.Data.List.Induction

/-!
# The last writer of a field

An expression is a start refined by a chain of steps. A step writes some of
the nine fields. Which ones, and what, can depend on its operand and on the
left-hand side of the expression, but on nothing written before: so the
outcome of a chain can be told field by field without running it. A field
holds what the last step that writes it wrote, and what it held at the
start if no step does.

A writer (`Step.writesRelation`, …) lists what each kind of step writes into
one field, `none` where it leaves the field alone; `lastWrite` takes the
last entry of a chain.

**Results.** `refine_eq` is one step in terms of its writers, `refineAll_eq`
a chain of them from any expression. `refineAll_start` is a chain from a
start, where a field never written is unset and the constant is zero.
-/
namespace LayoutConstraints

variable {ε : Type}

/-! ## Writers -/

/-- The number of a comparison with a constant. -/
def Adjustment.comparedWith : Adjustment ε → Option Double
  | .equalToConstant c => some c
  | .atLeastConstant c => some c
  | .atMostConstant c => some c
  | _ => none

namespace Step

def writesRelation : Step ε → Option (Option Relation)
  | .relate r _ => some (some r)
  | .adjust (.atLeastConstant _) => some (some .greaterOrEqual)
  | .adjust (.atMostConstant _) => some (some .lessOrEqual)
  | .adjust _ => none

/-- The target of an operand is taken over even where it has none. -/
def writesTarget : Step ε → Option (Option ε)
  | .relate _ operand => some operand.target?
  | .adjust (.of target) => some (some target)
  | .adjust (.equalToElement target) => some (some target)
  | .adjust _ => none

/-- Written by operands with a constant that is not zero. Both signs of zero
are zero, a NaN is not. -/
def writesConstant : Step ε → Option Double
  | .relate _ operand => if operand.constant == .zero then none else some operand.constant
  | .adjust (.plus c) => some c
  | .adjust (.minus c) => some (-c)
  | .adjust a => a.comparedWith

/-- Written by operands with a multiplier that is set and not zero. An
inequality with a constant writes an explicit `1`, an equality nothing. -/
def writesMultiplier : Step ε → Option (Option Double)
  | .relate _ operand =>
    match operand.multiplier? with
    | some m => if m == .zero then none else some (some m)
    | none => none
  | .adjust (.times m) => some (some m)
  | .adjust (.dividedBy d) => some (some d.reciprocal)
  | .adjust (.atLeastConstant _) => some (some .one)
  | .adjust (.atMostConstant _) => some (some .one)
  | .adjust _ => none

def writesPriority : Step ε → Option (Option Priority)
  | .adjust (.withPriority p) => some (some p)
  | _ => none

/-- Written by operands without a group, with their attribute if any, and on
an expression with a single attribute by comparisons with a constant. -/
def writesOtherAttribute (single? : Option Attribute) : Step ε → Option (Option Attribute)
  | .relate _ operand => if operand.group?.isSome then none else some operand.attribute?
  | .adjust a =>
    match a.comparedWith, single? with
    | some _, some _ => some (some .notAnAttribute)
    | _, _ => none

/-- Written by operands with a group and, on an expression with a group
alone, by comparisons with a constant: one marker for each attribute. -/
def writesOtherGroup (single? : Option Attribute) (group? : Option (List Attribute)) :
    Step ε → Option (Option (List Attribute))
  | .relate _ operand => if operand.group?.isSome then some operand.group? else none
  | .adjust a =>
    match a.comparedWith, single?, group? with
    | some _, none, some group => some (some (List.replicate group.length .notAnAttribute))
    | _, _, _ => none

end Step

/-- What the last step that writes wrote. -/
def lastWrite {α : Type} (writes : Step ε → Option α) (steps : List (Step ε)) : Option α :=
  steps.reverse.findSome? writes

theorem lastWrite_concat {α : Type} (writes : Step ε → Option α) (steps : List (Step ε))
    (s : Step ε) : lastWrite writes (steps ++ [s]) = (writes s).or (lastWrite writes steps) := by
  unfold lastWrite
  rw [List.reverse_concat, List.findSome?_cons]
  cases writes s <;> rfl

namespace Expression

/-! ## One step -/

/-- Comparing with a constant writes one slot on the right, chosen by the left-hand side. -/
theorem againstConstant_eq (e : Expression ε) :
    e.againstConstant =
      { e with
        otherAttribute? :=
          match e.attribute? with
          | some _ => some .notAnAttribute
          | none => e.otherAttribute?
        otherGroup? :=
          match e.attribute?, e.group? with
          | none, some group => some (List.replicate group.length .notAnAttribute)
          | _, _ => e.otherGroup? } := by
  unfold againstConstant
  cases e with
  | mk attribute? group? => cases attribute? <;> cases group? <;> rfl

/-- An operand's number is taken over unless it is zero. -/
theorem unless_zero {α : Type} (x : Double) (own taken : α) :
    (if x.isZero then own else taken) =
      (if x == .zero then none else some taken : Option α).getD own := by
  rw [Binary.isZero_eq]
  split <;> rfl

/-- One step, as its writers say. -/
theorem refine_eq (e : Expression ε) (s : Step ε) :
    e.refine s =
      { attribute? := e.attribute?
        group? := e.group?
        relation? := s.writesRelation.getD e.relation?
        target? := s.writesTarget.getD e.target?
        otherAttribute? := (s.writesOtherAttribute e.attribute?).getD e.otherAttribute?
        otherGroup? := (s.writesOtherGroup e.attribute? e.group?).getD e.otherGroup?
        multiplier? := s.writesMultiplier.getD e.multiplier?
        constant := s.writesConstant.getD e.constant
        priority? := s.writesPriority.getD e.priority? } := by
  cases s with
  | relate r operand =>
    have hm : (e.relate r operand).multiplier? =
        (Step.writesMultiplier (.relate r operand)).getD e.multiplier? := by
      simp only [relate, Step.writesMultiplier]
      cases operand.multiplier? with
      | none => rfl
      | some m => exact unless_zero m _ _
    have hc : (e.relate r operand).constant =
        (Step.writesConstant (.relate r operand)).getD e.constant := unless_zero _ _ _
    rw [← hm, ← hc]
    simp only [refine, relate, Step.writesOtherAttribute, Step.writesOtherGroup]
    cases operand.group? <;> rfl
  | adjust a =>
    cases a with
    | equalToConstant c | atLeastConstant c | atMostConstant c =>
      simp only [refine, adjust, boundedBy, againstConstant_eq]
      cases e.attribute? <;> cases e.group? <;> rfl
    | _ => rfl

/-! ## A chain of steps -/

theorem refineAll_concat (e : Expression ε) (steps : List (Step ε)) (s : Step ε) :
    e.refineAll (steps ++ [s]) = (e.refineAll steps).refine s := by
  simp [refineAll]

/-- All nine fields after a chain of steps. -/
theorem refineAll_eq (e : Expression ε) (steps : List (Step ε)) :
    e.refineAll steps =
      { attribute? := e.attribute?
        group? := e.group?
        relation? := (lastWrite Step.writesRelation steps).getD e.relation?
        target? := (lastWrite Step.writesTarget steps).getD e.target?
        otherAttribute? :=
          (lastWrite (Step.writesOtherAttribute e.attribute?) steps).getD e.otherAttribute?
        otherGroup? :=
          (lastWrite (Step.writesOtherGroup e.attribute? e.group?) steps).getD e.otherGroup?
        multiplier? := (lastWrite Step.writesMultiplier steps).getD e.multiplier?
        constant := (lastWrite Step.writesConstant steps).getD e.constant
        priority? := (lastWrite Step.writesPriority steps).getD e.priority? } := by
  -- From the end of the chain: the last step has its say before the earlier ones.
  induction steps using List.reverseRecOn with
  | nil => rfl
  | append_singleton steps s ih =>
    rw [refineAll_concat, ih, refine_eq]
    simp only [lastWrite_concat, Option.getD_or]

end Expression

/-! ## From a start -/

namespace Start

def single? : Start → Option Attribute
  | single a => some a
  | _ => none

def group? : Start → Option (List Attribute)
  | group as _ => some as
  | compound c => some c.attributes
  | _ => none

def otherGroup? : Start → Option (List Attribute)
  | group _ other => other
  | compound c => c.others
  | _ => none

end Start

/-- **The last writer wins.** A chain of steps from any start keeps the
left-hand side; every other field holds what its last writer wrote, and
without one it is unset, or zero for the constant. The group on the right
alone can be set by the start. -/
theorem refineAll_start (start : Start) (steps : List (Step ε)) :
    (start.expression : Expression ε).refineAll steps =
      { attribute? := start.single?
        group? := start.group?
        relation? := (lastWrite Step.writesRelation steps).getD none
        target? := (lastWrite Step.writesTarget steps).getD none
        otherAttribute? := (lastWrite (Step.writesOtherAttribute start.single?) steps).getD none
        otherGroup? :=
          (lastWrite (Step.writesOtherGroup start.single? start.group?) steps).getD
            start.otherGroup?
        multiplier? := (lastWrite Step.writesMultiplier steps).getD none
        constant := (lastWrite Step.writesConstant steps).getD .zero
        priority? := (lastWrite Step.writesPriority steps).getD none } := by
  rw [Expression.refineAll_eq]
  cases start <;> rfl

end LayoutConstraints
