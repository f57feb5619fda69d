import LayoutConstraints.Compilation
import LayoutConstraints.Expression.Step
import LayoutConstraints.Proofs.Equality
import Mathlib.Data.List.Forall2

/-!
# Equality is a congruence

Equal expressions need not be the same: `0` and `-0` are equal numbers. Yet
nothing that is done with an expression can tell equal ones apart.

* A step writes what it is given into both, and whether an operand's number
  is taken over depends on its being zero, which equal numbers are together.
* Tokens, groups and whether a field is set are the same in equal
  expressions, so the same attributes face each other, and each pair gives
  equal constraints.

The numbers a step is given must not be NaN, since no expression that holds
one equals any other.

**Results.** `Expression.adjust_congr`, `relate_congr` and with them
`refineAll_congr` for a chain of steps; `Draft.eval_congr` for parts replaced
anywhere inside an expression; `compile_congr` for a layout. Together they
make `equality_congruence`.
-/
namespace LayoutConstraints

variable {ε : Type}

/-! ## Numbers and optional values -/

theorem Binary.isZero_congr {F : Format} {x y : Binary F} (h : (x == y) = true) :
    x.isZero = y.isZero := by
  rw [isZero_eq, isZero_eq, BEq.congr_left h]

theorem Binary.isNaN_neg {F : Format} (x : Binary F) : (-x).isNaN = x.isNaN := by
  cases x <;> rfl

theorem Binary.isNaN_reciprocal {F : Format} (x : Binary F) : x.reciprocal.isNaN = x.isNaN := by
  cases x with
  | nan => rfl
  | number negative magnitude =>
    simp only [reciprocal]
    split
    · rfl
    · split <;> rfl

theorem none_or_some_of_beq {α : Type} [BEq α] {a b : Option α} (h : (a == b) = true) :
    a = none ∧ b = none ∨ ∃ x y, a = some x ∧ b = some y ∧ (x == y) = true := by
  cases a with
  | none => cases b <;> simp_all
  | some x => cases b <;> simp_all

theorem getD_congr {α : Type} [BEq α] {a b : Option α} {x y : α} (h : (a == b) = true)
    (hxy : (x == y) = true) : (a.getD x == b.getD y) = true := by
  rcases none_or_some_of_beq h with ⟨rfl, rfl⟩ | ⟨m, n, rfl, rfl, hmn⟩
  · exact hxy
  · exact hmn

/-- A number is taken over from both of two equal operands, or from neither. -/
theorem unless_zero_congr {α : Type} [BEq α] {x y : Double} (h : (x == y) = true)
    {own own' taken taken' : α} (hown : (own == own') = true) (htaken : (taken == taken') = true) :
    ((if x.isZero then own else taken) == if y.isZero then own' else taken') = true := by
  rw [Binary.isZero_congr h]
  split
  · exact hown
  · exact htaken

/-! ## Steps -/

/-- Whether the number that the step is given is NaN. -/
def Adjustment.holdsNaN : Adjustment ε → Bool
  | .of _ | .equalToElement _ => false
  | .equalToConstant c | .atLeastConstant c | .atMostConstant c | .plus c | .minus c => c.isNaN
  | .times m => m.isNaN
  | .dividedBy d => d.isNaN
  | .withPriority p => p.weight.isNaN

/-- Steps that are the same but for operands, which are equal. -/
inductive Step.Agrees [BEq ε] : Step ε → Step ε → Prop where
  | adjust {a : Adjustment ε} (h : a.holdsNaN = false) : Agrees (.adjust a) (.adjust a)
  | relate {r : Relation} {operand operand' : Expression ε} (h : (operand == operand') = true) :
    Agrees (.relate r operand) (.relate r operand')

namespace Expression

variable [BEq ε] {e e' operand operand' : Expression ε}

theorem againstConstant_congr (h : (e == e') = true) {c : Double} (hc : c.isNaN = false) :
    (({ e with constant := c } : Expression ε).againstConstant ==
      ({ e' with constant := c } : Expression ε).againstConstant) = true := by
  obtain ⟨hattribute, hgroup, hrelation, htarget, hother, hgroup', hmultiplier, -, hpriority⟩ :=
    beq_iff.1 h
  have hself := Binary.beq_self_iff.2 hc
  simp only [againstConstant, ← hattribute, ← hgroup]
  split
  · exact beq_iff.2 ⟨rfl, rfl, hrelation, htarget, rfl, hgroup', hmultiplier, hself, hpriority⟩
  · exact beq_iff.2 ⟨rfl, rfl, hrelation, htarget, hother, rfl, hmultiplier, hself, hpriority⟩
  · exact beq_iff.2 ⟨rfl, rfl, hrelation, htarget, hother, hgroup', hmultiplier, hself, hpriority⟩

theorem boundedBy_congr (h : (e == e') = true) (r : Relation) {c : Double} (hc : c.isNaN = false) :
    (e.boundedBy r c == e'.boundedBy r c) = true := by
  obtain ⟨hattribute, hgroup, -, htarget, hother, hgroup', -, hconstant, hpriority⟩ :=
    beq_iff.1 (againstConstant_congr h hc)
  exact beq_iff.2 ⟨hattribute, hgroup, rfl, htarget, hother, hgroup', rfl, hconstant, hpriority⟩

theorem adjust_congr [ReflBEq ε] (h : (e == e') = true) {a : Adjustment ε}
    (ha : a.holdsNaN = false) : (e.adjust a == e'.adjust a) = true := by
  obtain ⟨hattribute, hgroup, hrelation, htarget, hother, hgroup', hmultiplier, hconstant,
    hpriority⟩ := beq_iff.1 h
  cases a with
  | of target | equalToElement target =>
    exact beq_iff.2 ⟨hattribute, hgroup, hrelation, BEq.rfl, hother, hgroup', hmultiplier,
      hconstant, hpriority⟩
  | equalToConstant c => exact againstConstant_congr h ha
  | atLeastConstant c | atMostConstant c => exact boundedBy_congr h _ ha
  | plus c =>
    exact beq_iff.2 ⟨hattribute, hgroup, hrelation, htarget, hother, hgroup', hmultiplier,
      Binary.beq_self_iff.2 ha, hpriority⟩
  | minus c =>
    exact beq_iff.2 ⟨hattribute, hgroup, hrelation, htarget, hother, hgroup', hmultiplier,
      Binary.beq_self_iff.2 ((Binary.isNaN_neg c).trans ha), hpriority⟩
  | times m =>
    exact beq_iff.2 ⟨hattribute, hgroup, hrelation, htarget, hother, hgroup',
      Binary.beq_self_iff.2 ha, hconstant, hpriority⟩
  | dividedBy d =>
    exact beq_iff.2 ⟨hattribute, hgroup, hrelation, htarget, hother, hgroup',
      Binary.beq_self_iff.2 ((Binary.isNaN_reciprocal d).trans ha), hconstant, hpriority⟩
  | withPriority p =>
    exact beq_iff.2 ⟨hattribute, hgroup, hrelation, htarget, hother, hgroup', hmultiplier,
      hconstant, Constraint.priority_beq_self_iff.2 ha⟩

theorem relate_congr (h : (e == e') = true) (r : Relation) (ho : (operand == operand') = true) :
    (e.relate r operand == e'.relate r operand') = true := by
  obtain ⟨hattribute, hgroup, -, -, hother, hgroup', hmultiplier, hconstant, hpriority⟩ :=
    beq_iff.1 h
  obtain ⟨hoattribute, hogroup, -, hotarget, -, -, homultiplier, hoconstant, -⟩ := beq_iff.1 ho
  -- Groups are the same in equal operands, so both operands fill the same slot.
  have hslots : (e.relate r operand).otherAttribute? = (e'.relate r operand').otherAttribute? ∧
      (e.relate r operand).otherGroup? = (e'.relate r operand').otherGroup? := by
    simp only [relate, ← hogroup]
    cases operand.group? with
    | some group => exact ⟨hother, rfl⟩
    | none => exact ⟨hoattribute, hgroup'⟩
  have hmultiplied : ((e.relate r operand).multiplier? == (e'.relate r operand').multiplier?) =
      true := by
    rcases none_or_some_of_beq homultiplier with ⟨hm, hm'⟩ | ⟨m, m', hm, hm', hbeq⟩
    · simp only [relate, hm, hm']
      exact hmultiplier
    · simp only [relate, hm, hm']
      exact unless_zero_congr hbeq hmultiplier (Option.some_beq_some.trans hbeq)
  exact beq_iff.2 ⟨hattribute, hgroup, rfl, hotarget, hslots.1, hslots.2, hmultiplied,
    unless_zero_congr hoconstant hconstant hoconstant, hpriority⟩

theorem refine_congr [ReflBEq ε] (h : (e == e') = true) {s s' : Step ε} (hs : s.Agrees s') :
    (e.refine s == e'.refine s') = true := by
  cases hs with
  | adjust ha => exact adjust_congr h ha
  | relate ho => exact relate_congr h _ ho

theorem refineAll_congr [ReflBEq ε] (h : (e == e') = true) {steps steps' : List (Step ε)}
    (hs : List.Forall₂ Step.Agrees steps steps') :
    (e.refineAll steps == e'.refineAll steps') = true := by
  induction hs generalizing e e' with
  | nil => exact h
  | cons hstep _ ih => exact ih (refine_congr h hstep)

end Expression

/-! ## Parts of an expression -/

/-- The second draft is the first with parts replaced by equal ones: the whole,
or parts of the expression refined and of an operand, at any depth. -/
inductive Draft.Replaced [BEq ε] (bindings : String → Expression ε) : Draft ε → Draft ε → Prop where
  | equal {d d' : Draft ε} (h : (d.eval bindings == d'.eval bindings) = true) :
    Replaced bindings d d'
  | adjust {base base' : Draft ε} {a : Adjustment ε} (h : Replaced bindings base base')
    (ha : a.holdsNaN = false) : Replaced bindings (.adjust base a) (.adjust base' a)
  | relate {base base' operand operand' : Draft ε} {r : Relation}
    (h : Replaced bindings base base') (ho : Replaced bindings operand operand') :
    Replaced bindings (.relate base r operand) (.relate base' r operand')

theorem Draft.eval_congr [BEq ε] [ReflBEq ε] {bindings : String → Expression ε} {d d' : Draft ε}
    (h : Replaced bindings d d') : (d.eval bindings == d'.eval bindings) = true := by
  induction h with
  | equal h => exact h
  | adjust _ ha ih => exact Expression.adjust_congr ih ha
  | relate _ _ ih iho => exact Expression.relate_congr ih _ iho

/-! ## Layouts -/

/-- Both fail alike, or both give as many constraints, equal one by one. -/
inductive Agree [BEq ε] :
    Except Failure (List (Constraint ε)) → Except Failure (List (Constraint ε)) → Prop where
  | failed (f : Failure) : Agree (.error f) (.error f)
  | compiled {cs ds : List (Constraint ε)}
    (h : List.Forall₂ (fun c d => (c == d) = true) cs ds) : Agree (.ok cs) (.ok ds)

section

variable [BEq ε] {e e' : Expression ε} {element element' container container' : ε}

theorem Expression.sources_congr (h : (e == e') = true) : e.sources? = e'.sources? := by
  obtain ⟨hattribute, hgroup, -⟩ := beq_iff.1 h
  rw [sources?, sources?, hattribute, hgroup]

theorem Expression.targets_congr (h : (e == e') = true) : e.targets = e'.targets := by
  obtain ⟨hattribute, hgroup, -, -, hother, hgroup', -⟩ := beq_iff.1 h
  rw [targets, targets, hattribute, hgroup, hother, hgroup']

theorem Expression.constraint_congr (h : (e == e') = true) (helement : (element == element') = true)
    (hcontainer : (container == container') = true) (a b : Attribute) :
    (e.constraint element container a b == e'.constraint element' container' a b) = true := by
  obtain ⟨-, -, hrelation, htarget, -, -, hmultiplier, hconstant, hpriority⟩ := beq_iff.1 h
  refine Constraint.beq_iff.2 ⟨helement, rfl, congrArg (Option.getD · default) hrelation, ?_, rfl,
    getD_congr hmultiplier (Binary.beq_self_iff.2 rfl), hconstant, hpriority⟩
  simp only [constraint]
  split
  · exact getD_congr htarget hcontainer
  · rfl

theorem Expression.compile_congr (h : (e == e') = true) (helement : (element == element') = true)
    (hcontainer : (container == container') = true) (index : Nat) :
    Agree (e.compile element container index).result
      (e'.compile element' container' index).result := by
  unfold compile
  rw [← sources_congr h, ← targets_congr h]
  cases e.sources? with
  | none => exact .failed _
  | some as =>
    refine .compiled ?_
    simp only [← List.map_uncurry_zip_eq_zipWith, List.forall₂_map_left_iff,
      List.forall₂_map_right_iff, List.forall₂_same]
    exact fun pair _ => constraint_congr h helement hcontainer pair.1 pair.2

theorem Agree.append {a b a' b' : Compilation ε} (ha : Agree a.result a'.result)
    (hb : Agree b.result b'.result) : Agree (a ++ b).result (a' ++ b').result := by
  obtain ⟨la, ra⟩ := a
  obtain ⟨la', ra'⟩ := a'
  obtain ⟨lb, rb⟩ := b
  obtain ⟨lb', rb'⟩ := b'
  cases ha with
  | failed f => exact .failed f
  | compiled hcs =>
    cases hb with
    | failed f => exact .failed f
    | compiled hds => exact .compiled (List.rel_append hcs hds)

theorem compileFrom_congr {es es' : List (Expression ε)}
    (h : List.Forall₂ (fun e e' => (e == e') = true) es es')
    (helement : (element == element') = true)
    (hcontainer : (container == container') = true) (index : Nat) :
    Agree (compileFrom element container index es).result
      (compileFrom element' container' index es').result := by
  induction h generalizing index with
  | nil => exact .compiled .nil
  | cons he _ ih => exact (Expression.compile_congr he helement hcontainer index).append (ih _)

theorem compile_congr {container? : ε → Option ε} {es es' : List (Expression ε)}
    (h : List.Forall₂ (fun e e' => (e == e') = true) es es')
    (helement : (element == element') = true)
    (hcontainer : (container? element == container? element') = true) :
    Agree (compile container? element es).result (compile container? element' es').result := by
  unfold compile
  rcases none_or_some_of_beq hcontainer with ⟨hc, hc'⟩ | ⟨container, container', hc, hc', hbeq⟩
  · rw [hc, hc']
    exact .failed _
  · rw [hc, hc']
    simp only [Compilation.result_concluding]
    exact compileFrom_congr h helement hbeq 0

end

/-- **Equality is a congruence.** Equal layouts of equal elements, in equal
containers or none, give equal constraints one by one or fail alike. Chains
of the same steps, with equal operands, keep equal expressions equal. So
replacing parts of the expressions of a layout by equal ones, at whatever
depth, never changes what the layout gives, up to equality. -/
theorem equality_congruence [BEq ε] [EquivBEq ε] (container? : ε → Option ε)
    (bindings : String → Expression ε) :
    (∀ (element element' : ε) (es es' : List (Expression ε)), (element == element') = true →
      (container? element == container? element') = true →
      List.Forall₂ (fun e e' => (e == e') = true) es es' →
      Agree (compile container? element es).result (compile container? element' es').result) ∧
    (∀ (e e' : Expression ε) (steps steps' : List (Step ε)), (e == e') = true →
      List.Forall₂ Step.Agrees steps steps' →
      (e.refineAll steps == e'.refineAll steps') = true) ∧
    (∀ (element : ε) (ds ds' : List (Draft ε)), List.Forall₂ (Draft.Replaced bindings) ds ds' →
      Agree (compile container? element (ds.map (·.eval bindings))).result
        (compile container? element (ds'.map (·.eval bindings))).result) := by
  refine ⟨fun element element' es es' helement hcontainer h => compile_congr h helement hcontainer,
    fun e e' steps steps' h hs => Expression.refineAll_congr h hs, fun element ds ds' h => ?_⟩
  refine compile_congr ?_ BEq.rfl BEq.rfl
  rw [List.forall₂_map_left_iff, List.forall₂_map_right_iff]
  exact h.imp fun d d' hd => Draft.eval_congr hd

/-- Constants `0` and `-0` in two expressions, in an operand of two, and in a
part of two: the results differ in the sign of a zero and are equal. -/
theorem equality_congruence_zeros :
    let left : Expression String := .ofAttribute .left
    let signed : Expression String := left.adjust (.minus .zero)
    let container? := fun name => if name = "label" then some "view" else none
    left ≠ signed ∧
      Agree (compile container? "label" [left]).result
        (compile container? "label" [signed]).result ∧
      (left.refineAll [.relate .equal left] == left.refineAll [.relate .equal signed]) = true ∧
      Agree
        (compile container? "label"
          [(Draft.adjust (.stored "left") (.times .one)).eval fun _ => left]).result
        (compile container? "label"
          [(Draft.adjust (.adjust (.stored "left") (.minus .zero)) (.times .one)).eval
            fun _ => left]).result := by
  intro left signed container?
  have hequal : (left == signed) = true := by decide
  have h := equality_congruence container? (fun _ => left)
  exact ⟨by decide, h.1 "label" "label" _ _ rfl rfl (.cons hequal .nil),
    h.2.1 _ _ _ _ rfl (.cons (.relate hequal) .nil),
    h.2.2 "label" [_] [_] (.cons (.adjust (.equal hequal) rfl) .nil)⟩

end LayoutConstraints
