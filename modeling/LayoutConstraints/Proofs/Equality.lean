import LayoutConstraints.Constraint
import LayoutConstraints.Expression

/-!
# Equality is a partial equivalence

Constraints are equal when their fields are, numbers by arithmetic. So an
equal constraint need not be the same one, as the two zeros are equal, and
a constraint need not equal itself: one that holds a NaN equals nothing.
What stays of an equivalence is symmetry and transitivity, all that keeping
a set of constraints up to equality needs. Expressions are equal in the same
way, where a multiplier that is not set can be no NaN.

Equality of elements is a parameter. It is taken to be an equivalence, as
the identity of nodes in a tree is.

**Results.** Instances of `PartialEquivBEq` for numbers, priorities,
constraints and expressions. `Constraint.beq_self_iff`,
`Expression.beq_self_iff`: the gap is NaN, in the multiplier, the constant
or the priority.
-/
namespace LayoutConstraints

/-! ## Numbers and priorities -/

instance {F : Format} : PartialEquivBEq (Binary F) where
  symm {x y} h := by rwa [Binary.beq_comm]
  trans := Binary.beq_trans

instance : PartialEquivBEq Priority where
  symm {p q} h := by
    rw [Priority.beq_def] at h ⊢
    exact BEq.symm h
  trans {p q r} hpq hqr := by
    rw [Priority.beq_def] at hpq hqr ⊢
    exact BEq.trans hpq hqr

/-- An absent value equals an absent one. -/
instance partialEquivBEqOption {α : Type} [BEq α] [PartialEquivBEq α] :
    PartialEquivBEq (Option α) where
  symm {a b} h := by
    cases a with
    | none => cases b <;> simp_all
    | some x =>
      cases b with
      | none => simp at h
      | some y =>
        rw [Option.some_beq_some] at h ⊢
        exact BEq.symm h
  trans {a b c} hab hbc := by
    cases b with
    | none => cases a <;> cases c <;> simp_all
    | some y =>
      cases a with
      | none => simp at hab
      | some x =>
        cases c with
        | none => simp at hbc
        | some z =>
          rw [Option.some_beq_some] at hab hbc ⊢
          exact BEq.trans hab hbc

/-- An optional value equals itself unless it is one that does not. -/
theorem optional_beq_self_iff {α : Type} [BEq α] {gap : α → Bool}
    (hgap : ∀ x : α, (x == x) = true ↔ gap x = false) {o : Option α} :
    (o == o) = true ↔ o.any gap = false := by
  cases o with
  | none => simp
  | some x => rw [Option.some_beq_some, hgap, Option.any_some]

/-! ## Constraints -/

namespace Constraint

variable {ε : Type} [BEq ε]

/-- Whether the multiplier, the constant or the priority is NaN. -/
def holdsNaN (c : Constraint ε) : Bool :=
  c.multiplier.isNaN || c.constant.isNaN || c.priority?.any (·.weight.isNaN)

instance [PartialEquivBEq ε] : PartialEquivBEq (Constraint ε) where
  symm {a b} h := by
    obtain ⟨he, hs, hr, ht, hta, hm, hc, hp⟩ := beq_iff.1 h
    exact beq_iff.2 ⟨BEq.symm he, hs.symm, hr.symm, BEq.symm ht, hta.symm, BEq.symm hm,
      BEq.symm hc, BEq.symm hp⟩
  trans {a b c} hab hbc := by
    obtain ⟨he, hs, hr, ht, hta, hm, hc, hp⟩ := beq_iff.1 hab
    obtain ⟨he', hs', hr', ht', hta', hm', hc', hp'⟩ := beq_iff.1 hbc
    exact beq_iff.2 ⟨BEq.trans he he', hs.trans hs', hr.trans hr', BEq.trans ht ht',
      hta.trans hta', BEq.trans hm hm', BEq.trans hc hc', BEq.trans hp hp'⟩

theorem priority_beq_self_iff {priority? : Option Priority} :
    (priority? == priority?) = true ↔ priority?.any (·.weight.isNaN) = false := by
  refine optional_beq_self_iff fun p => ?_
  rw [Priority.beq_def, Binary.beq_self_iff]

theorem beq_self_iff [ReflBEq ε] {c : Constraint ε} : (c == c) = true ↔ c.holdsNaN = false := by
  simp only [beq_iff, Binary.beq_self_iff, priority_beq_self_iff, BEq.rfl, true_and, holdsNaN,
    Bool.or_eq_false_iff, and_assoc]

/-- A constraint that equals some constraint holds no NaN. -/
theorem holdsNaN_of_beq [EquivBEq ε] {a b : Constraint ε} (h : (a == b) = true) :
    a.holdsNaN = false :=
  beq_self_iff.1 (BEq.trans h (BEq.symm h))

end Constraint

/-! ## Expressions -/

namespace Expression

variable {ε : Type} [BEq ε]

/-- Whether the multiplier, if set, the constant or the priority is NaN. -/
def holdsNaN (e : Expression ε) : Bool :=
  e.multiplier?.any (·.isNaN) || e.constant.isNaN || e.priority?.any (·.weight.isNaN)

instance [PartialEquivBEq ε] : PartialEquivBEq (Expression ε) where
  symm {a b} h := by
    obtain ⟨hs, hg, hr, ht, hos, hog, hm, hc, hp⟩ := beq_iff.1 h
    exact beq_iff.2 ⟨hs.symm, hg.symm, hr.symm, BEq.symm ht, hos.symm, hog.symm, BEq.symm hm,
      BEq.symm hc, BEq.symm hp⟩
  trans {a b c} hab hbc := by
    obtain ⟨hs, hg, hr, ht, hos, hog, hm, hc, hp⟩ := beq_iff.1 hab
    obtain ⟨hs', hg', hr', ht', hos', hog', hm', hc', hp'⟩ := beq_iff.1 hbc
    exact beq_iff.2 ⟨hs.trans hs', hg.trans hg', hr.trans hr', BEq.trans ht ht',
      hos.trans hos', hog.trans hog', BEq.trans hm hm', BEq.trans hc hc', BEq.trans hp hp'⟩

theorem beq_self_iff [ReflBEq ε] {e : Expression ε} : (e == e) = true ↔ e.holdsNaN = false := by
  have hmultiplier : (e.multiplier? == e.multiplier?) = true ↔
      e.multiplier?.any (·.isNaN) = false := optional_beq_self_iff fun m => Binary.beq_self_iff
  simp only [beq_iff, hmultiplier, Binary.beq_self_iff, Constraint.priority_beq_self_iff, BEq.rfl,
    true_and, holdsNaN, Bool.or_eq_false_iff, and_assoc]

end Expression

end LayoutConstraints
