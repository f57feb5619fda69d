import LayoutConstraints.Expression.Start

/-!
# Refining an expression

A step sets fields of an expression. `Adjustment`s write what they are
given; `Expression.relate` takes over the right-hand side from another
expression. Steps are applied in order and the last writer of a field wins,
with two rules of their own:

* comparing with a constant puts `notAnAttribute` into one right-hand slot
  per left-hand attribute;
* a constant or multiplier is taken over from an operand only if it is not
  zero, and a multiplier only if it was set.

A `Draft` is an expression in writing: a start or the name of a stored
expression, refined by steps whose operands are drafts.

**Results.** `refine_attribute?`, `refine_group?`: no step touches the
left-hand side.
-/
namespace LayoutConstraints

variable {ε δ : Type}

/-! ## Steps -/

/-- The operations of these names; `atLeastConstant` and `atMostConstant` mirror
`greater_or_equal_to_constant` and `less_or_equal_to_constant`. -/
inductive Adjustment (ε : Type) where
  /-- Measure against this element instead of the container. -/
  | of (target : ε)
  /-- Relate to the same attributes of this element. -/
  | equalToElement (target : ε)
  | equalToConstant (constant : Double)
  | atLeastConstant (constant : Double)
  | atMostConstant (constant : Double)
  | plus (constant : Double)
  | minus (constant : Double)
  | times (multiplier : Double)
  | dividedBy (divisor : Double)
  | withPriority (priority : Priority)
  deriving DecidableEq, Repr

/-- To relate to an operand is `equal_to`, `greater_or_equal_to` or
`less_or_equal_to`. -/
inductive Step (ε : Type) where
  | adjust (adjustment : Adjustment ε)
  | relate (relation : Relation) (operand : Expression ε)
  deriving DecidableEq, Repr

namespace Expression

/-- One `notAnAttribute` on the right for each attribute on the left. Mirrors
`compare_to_constant`. -/
def againstConstant (e : Expression ε) : Expression ε :=
  match e.attribute?, e.group? with
  | some _, _ => { e with otherAttribute? := some .notAnAttribute }
  | none, some group =>
    { e with otherGroup? := some (List.replicate group.length .notAnAttribute) }
  | none, none => e

/-- An inequality with a constant, which also sets the multiplier to `1`.
Mirrors `bound_by_constant`. -/
def boundedBy (e : Expression ε) (relation : Relation) (constant : Double) : Expression ε :=
  { againstConstant { e with constant := constant } with
    relation? := some relation
    multiplier? := some .one }

def adjust (e : Expression ε) : Adjustment ε → Expression ε
  | .of target => { e with target? := some target }
  | .equalToElement target => { e with target? := some target }
  | .equalToConstant c => againstConstant { e with constant := c }
  | .atLeastConstant c => e.boundedBy .greaterOrEqual c
  | .atMostConstant c => e.boundedBy .lessOrEqual c
  | .plus c => { e with constant := c }
  | .minus c => { e with constant := -c }
  | .times m => { e with multiplier? := some m }
  | .dividedBy d => { e with multiplier? := some d.reciprocal }
  | .withPriority p => { e with priority? := some p }

/-- Relate to the left-hand side of `operand`, on its target. Mirrors `merge`. -/
def relate (e : Expression ε) (relation : Relation) (operand : Expression ε) : Expression ε where
  attribute? := e.attribute?
  group? := e.group?
  relation? := some relation
  target? := operand.target?
  otherAttribute? :=
    match operand.group? with
    | some _ => e.otherAttribute?
    | none => operand.attribute?
  otherGroup? :=
    match operand.group? with
    | some group => some group
    | none => e.otherGroup?
  multiplier? :=
    match operand.multiplier? with
    | some m => if m.isZero then e.multiplier? else some m
    | none => e.multiplier?
  constant := if operand.constant.isZero then e.constant else operand.constant
  priority? := e.priority?

def refine (e : Expression ε) : Step ε → Expression ε
  | .adjust a => e.adjust a
  | .relate r operand => e.relate r operand

def refineAll (e : Expression ε) (steps : List (Step ε)) : Expression ε :=
  steps.foldl refine e

theorem againstConstant_attribute? (e : Expression ε) :
    e.againstConstant.attribute? = e.attribute? := by
  unfold againstConstant; split <;> rfl

theorem againstConstant_group? (e : Expression ε) : e.againstConstant.group? = e.group? := by
  unfold againstConstant; split <;> rfl

theorem refine_attribute? (e : Expression ε) (s : Step ε) :
    (e.refine s).attribute? = e.attribute? := by
  cases s with
  | relate r operand => rfl
  | adjust a =>
    cases a with
    | equalToConstant c => exact againstConstant_attribute? _
    | atLeastConstant c => exact againstConstant_attribute? _
    | atMostConstant c => exact againstConstant_attribute? _
    | _ => rfl

theorem refine_group? (e : Expression ε) (s : Step ε) : (e.refine s).group? = e.group? := by
  cases s with
  | relate r operand => rfl
  | adjust a =>
    cases a with
    | equalToConstant c => exact againstConstant_group? _
    | atLeastConstant c => exact againstConstant_group? _
    | atMostConstant c => exact againstConstant_group? _
    | _ => rfl

end Expression

/-! ## Drafts -/

inductive Draft (ε : Type) where
  | start (start : Start)
  | stored (name : String)
  | adjust (base : Draft ε) (adjustment : Adjustment ε)
  | relate (base : Draft ε) (relation : Relation) (operand : Draft ε)
  deriving Repr

def Adjustment.map (f : ε → δ) : Adjustment ε → Adjustment δ
  | .of target => .of (f target)
  | .equalToElement target => .equalToElement (f target)
  | .equalToConstant c => .equalToConstant c
  | .atLeastConstant c => .atLeastConstant c
  | .atMostConstant c => .atMostConstant c
  | .plus c => .plus c
  | .minus c => .minus c
  | .times m => .times m
  | .dividedBy d => .dividedBy d
  | .withPriority p => .withPriority p

namespace Draft

/-- The same draft about other elements. -/
def map (f : ε → δ) : Draft ε → Draft δ
  | start s => start s
  | stored name => stored name
  | adjust base a => adjust (base.map f) (a.map f)
  | relate base r operand => relate (base.map f) r (operand.map f)

/-- The expression a draft says, given the stored expressions. -/
def eval (bindings : String → Expression ε) : Draft ε → Expression ε
  | start s => s.expression
  | stored name => bindings name
  | adjust base a => (base.eval bindings).adjust a
  | relate base r operand => (base.eval bindings).relate r (operand.eval bindings)

/-- The expression after the start and after each further outermost step. -/
def stages (bindings : String → Expression ε) : Draft ε → List (Expression ε)
  | start s => [s.expression]
  | stored name => [bindings name]
  | d@(adjust base _) => base.stages bindings ++ [d.eval bindings]
  | d@(relate base _ _) => base.stages bindings ++ [d.eval bindings]

end Draft

end LayoutConstraints
