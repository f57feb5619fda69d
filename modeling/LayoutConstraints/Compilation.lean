import LayoutConstraints.Expression
import LayoutConstraints.Constraint

/-!
# Compiling expressions

An expression is compiled for an element by pairing its left-hand
attributes with its right-hand ones, as far as both go, and binding each
pair to the element and a target: the target of the expression, or else
the container of the element. A pair against `notAnAttribute` has none.

A `Compilation` is the outcome with the notices given on the way. It stops
at the first failure, and the notices given before it stay. `++` runs one
compilation after another.

* `compile` is for one element, which must have a container even where no
  expression needs it.
* `compileAll` is for each element of a list.
* `compileChained` is for each element of a list but the first, with
  expressions that depend on the one before it.

**Results.** `append_assoc`, `empty_append`, `append_empty`: compilations
run in any grouping alike. `result_append_ok`, `result_append_error`: how
one after another ends.
-/
namespace LayoutConstraints

variable {ε σ : Type}

/-! ## Failures -/

/-- Mirrors `ExpandError`. -/
inductive Failure where
  | missingContainer
  | undefinedAttribute (index : Nat)
  deriving DecidableEq, Repr

def Failure.message : Failure → String
  | missingContainer => "element must be added to a container before applying a layout"
  | undefinedAttribute index => s!"layout expression #{index} must define an attribute"

/-! ## Notices -/

inductive Level where
  | trace
  | debug
  | warning
  deriving DecidableEq, Repr

def Level.label : Level → String
  | trace => "TRACE"
  | debug => "DEBUG"
  | warning => "WARN"

/-- What is reported while layouts are compiled and installed, by `warn`, `trace`
and `debug`. -/
inductive Notice where
  | lengthsDiffer (index sources targets : Nat)
  | emitted (index : Nat) (sourceAttribute : Attribute) (relation : Relation)
      (targetAttribute : Attribute) (multiplier constant : Double)
  | compiled (expressions constraints : Nat)
  | activating (constraints : Nat)
  deriving DecidableEq, Repr

namespace Notice

def level : Notice → Level
  | lengthsDiffer .. => .warning
  | emitted .. => .trace
  | compiled .. => .debug
  | activating .. => .debug

def message : Notice → String
  | lengthsDiffer .. => "attribute group lengths differ, pairing the common prefix"
  | emitted .. => "constraint"
  | compiled .. => "expanded layout"
  | activating .. => "activating constraints"

def ofConstraint (index : Nat) (c : Constraint ε) : Notice :=
  .emitted index c.sourceAttribute c.relation c.targetAttribute c.multiplier c.constant

end Notice

/-! ## Compilations -/

structure Compilation (ε : Type) where
  log : List Notice
  result : Except Failure (List (Constraint ε))

namespace Compilation

def empty : Compilation ε := ⟨[], .ok []⟩

def fail (f : Failure) : Compilation ε := ⟨[], .error f⟩

/-- The second is run only if the first does not fail. -/
def append (a b : Compilation ε) : Compilation ε :=
  match a.result, b.result with
  | .error _, _ => a
  | .ok _, .error f => ⟨a.log ++ b.log, .error f⟩
  | .ok cs, .ok ds => ⟨a.log ++ b.log, .ok (cs ++ ds)⟩

instance : Append (Compilation ε) := ⟨append⟩

/-- Ends a compilation that did not fail with a notice about its constraints. -/
def concluding (a : Compilation ε) (notice : List (Constraint ε) → Notice) : Compilation ε :=
  match a.result with
  | .error _ => a
  | .ok cs => ⟨a.log ++ [notice cs], .ok cs⟩

theorem append_of_error {a b : Compilation ε} {f : Failure} (h : a.result = .error f) :
    a ++ b = a := by
  show append a b = a
  unfold append
  rw [h]

theorem empty_append (a : Compilation ε) : empty ++ a = a := by
  obtain ⟨log, result⟩ := a
  cases result <;> rfl

theorem append_empty (a : Compilation ε) : a ++ empty = a := by
  obtain ⟨log, result⟩ := a
  cases result with
  | error f => rfl
  | ok cs =>
    show (⟨log ++ [], .ok (cs ++ [])⟩ : Compilation ε) = _
    rw [List.append_nil, List.append_nil]

theorem append_assoc (a b c : Compilation ε) : a ++ b ++ c = a ++ (b ++ c) := by
  obtain ⟨la, ra⟩ := a
  obtain ⟨lb, rb⟩ := b
  obtain ⟨lc, rc⟩ := c
  cases ra with
  | error f => rfl
  | ok as =>
    cases rb with
    | error f => rfl
    | ok bs =>
      cases rc with
      | error f =>
        show (⟨la ++ lb ++ lc, .error f⟩ : Compilation ε) = ⟨la ++ (lb ++ lc), .error f⟩
        rw [List.append_assoc]
      | ok cs =>
        show (⟨la ++ lb ++ lc, .ok (as ++ bs ++ cs)⟩ : Compilation ε) =
          ⟨la ++ (lb ++ lc), .ok (as ++ (bs ++ cs))⟩
        rw [List.append_assoc, List.append_assoc]

theorem result_append_ok {a b : Compilation ε} {cs : List (Constraint ε)} :
    (a ++ b).result = .ok cs ↔
      ∃ as bs, a.result = .ok as ∧ b.result = .ok bs ∧ cs = as ++ bs := by
  show (append a b).result = .ok cs ↔ _
  unfold append
  cases ha : a.result with
  | error f => simp [ha]
  | ok as => cases hb : b.result <;> simp [eq_comm]

theorem result_append_error {a b : Compilation ε} {f : Failure} :
    (a ++ b).result = .error f ↔
      a.result = .error f ∨ (∃ as, a.result = .ok as) ∧ b.result = .error f := by
  show (append a b).result = .error f ↔ _
  unfold append
  cases ha : a.result with
  | error g => simp [ha]
  | ok as => cases hb : b.result <;> simp

@[simp]
theorem result_concluding (a : Compilation ε) (notice : List (Constraint ε) → Notice) :
    (a.concluding notice).result = a.result := by
  unfold concluding
  split <;> simp_all

end Compilation

/-! ## One expression -/

namespace Expression

/-- What the expression says about one pair of attributes. -/
def constraint (e : Expression ε) (element container : ε) (source target : Attribute) :
    Constraint ε where
  element := element
  sourceAttribute := source
  relation := e.relation
  target? := if target.isReal then some (e.target?.getD container) else none
  targetAttribute := target
  multiplier := e.multiplier
  constant := e.constant
  priority? := e.priority?

/-- The constraints of the expression at position `index` of its layout; one
turn of the loop of `expand`. -/
def compile (e : Expression ε) (element container : ε) (index : Nat) : Compilation ε :=
  match e.sources? with
  | none => .fail (.undefinedAttribute index)
  | some sources =>
    let constraints := sources.zipWith (e.constraint element container) e.targets
    let warnings :=
      if sources.length = e.targets.length then []
      else [Notice.lengthsDiffer index sources.length e.targets.length]
    ⟨warnings ++ constraints.map (Notice.ofConstraint index), .ok constraints⟩

end Expression

/-! ## Layouts -/

/-- The expressions from position `index` of a layout on; the rest of that loop. -/
def compileFrom (element container : ε) (index : Nat) : List (Expression ε) → Compilation ε
  | [] => .empty
  | e :: es => e.compile element container index ++ compileFrom element container (index + 1) es

/-- The layout of one element, given where each element is contained. Mirrors
`expand`. -/
def compile (container? : ε → Option ε) (element : ε) (es : List (Expression ε)) :
    Compilation ε :=
  match container? element with
  | none => .fail .missingContainer
  | some container =>
    (compileFrom element container 0 es).concluding fun cs => .compiled es.length cs.length

/-- The same layout for each element, in order. Mirrors `expand_all`. -/
def compileAll (container? : ε → Option ε) (elements : List ε) (es : List (Expression ε)) :
    Compilation ε :=
  match elements with
  | [] => .empty
  | element :: rest => compile container? element es ++ compileAll container? rest es

/-- The layout of each element after the first, as `layout` gives it for the
element before. `layout` is asked once per pair, in order, only while nothing
has failed, and may change the state of its host. Mirrors
`expand_with_previous`.

Where elements are contained is fixed for the whole call: `container?` does not
see the state. A `layout` that puts elements into other containers while it is
asked is outside what is described here. -/
def compileChained (container? : ε → Option ε) (layout : ε → σ → List (Expression ε) × σ) :
    List ε → σ → Compilation ε × σ
  | previous :: element :: rest, s =>
    let asked := layout previous s
    let first := compile container? element asked.1
    match first.result with
    | .error _ => (first, asked.2)
    | .ok _ =>
      let others := compileChained container? layout (element :: rest) asked.2
      (first ++ others.1, others.2)
  | _, s => (.empty, s)

end LayoutConstraints
