import LayoutConstraints.Proofs.Grammar
import LayoutConstraints.Proofs.Widening

/-!
# Reading a written constraint back

A written constraint is an object with a key for each field. In it `null`
stands for three things: an absent target, an absent priority, and a number
that is not finite. Where it may stand decides what reading makes of it. A
target or priority may be absent, so a priority that was not finite is read
as none. A multiplier or constant may not, so the constraint is not read at
all.

All else comes back as it was. A double is written as it is. A priority is
widened to a double and narrowed again, which is the identity on every
single (`Binary.convert_convert`), subnormal and zero of either sign
included.

**Results.** One lemma for each kind of field, and `Constraint.reads_back`.
-/
namespace LayoutConstraints

namespace Document

/-! ## Tokens -/

theorem attribute_tag (a : Attribute) : (text a.tag).attribute? = some a :=
  (attribute_iff _ a).mpr .plain

theorem relation_tag (r : Relation) : (text r.tag).relation? = some r :=
  (relation_iff _ r).mpr .plain

/-! ## Numbers -/

theorem ofDouble_finite {x : Double} (h : x.isFinite = true) : ofDouble x = number x := if_pos h

theorem ofDouble_not_finite {x : Double} (h : x.isFinite = false) : ofDouble x = null :=
  if_neg (by rw [h]; decide)

theorem double_ofDouble (x : Double) :
    (ofDouble x).double? = if x.isFinite then some x else none := by
  unfold ofDouble
  split <;> rfl

/-- A weight is written as the double it widens to. -/
theorem priority_widened (p : Priority) :
    (number p.weight.convert).priority? = some p := by
  show some (Priority.mk (p.weight.convert : Double).convert) = some p
  rw [Binary.convert_convert Format.single_embeds]

/-! ## Values that may be absent -/

theorem optional_target (target? : Option String) :
    optional? string? (some (ofOption text target?)) = some target? := by
  cases target? <;> rfl

theorem optional_priority (priority? : Option Priority) :
    optional? Document.priority?
        (some (ofOption (fun p => ofDouble p.weight.convert) priority?)) =
      some (priority?.filter (·.weight.isFinite)) := by
  cases priority? with
  | none => rfl
  | some p =>
    have hwide := Binary.isFinite_convert Format.single_embeds p.weight
    cases h : p.weight.isFinite with
    | true =>
      rw [h] at hwide
      rw [ofOption, ofDouble_finite hwide, Option.filter, if_pos h]
      show ((number p.weight.convert).priority?).map some = some (some p)
      rw [priority_widened, Option.map_some]
    | false =>
      rw [h] at hwide
      rw [ofOption, ofDouble_not_finite hwide, Option.filter, if_neg (by rw [h]; decide)]
      rfl

end Document

namespace Constraint

/-- Each field is looked up under the key it was written under; only the two
numbers that must be there can fail. -/
theorem ofDocument_toDocument (c : Constraint String) :
    ofDocument? c.toDocument =
      (Document.ofDouble c.multiplier).double?.bind fun multiplier =>
        (Document.ofDouble c.constant).double?.bind fun constant =>
          some { c with
            multiplier
            constant
            priority? := c.priority?.filter (·.weight.isFinite) } := by
  simp [ofDocument?, toDocument, ofFields?, List.lookup_cons, Document.string?,
    Document.attribute_tag, Document.relation_tag, Document.optional_target,
    Document.optional_priority]

/-- **Reading undoes writing.** A written constraint can be read if and only if
its multiplier and its constant are finite. What is read is then the same in
every field, the sign of a zero included, but that a priority which was not
finite has become none. -/
theorem reads_back (c d : Constraint String) :
    ofDocument? c.toDocument = some d ↔
      c.multiplier.isFinite = true ∧ c.constant.isFinite = true ∧
        d = { c with priority? := c.priority?.filter (·.weight.isFinite) } := by
  rw [ofDocument_toDocument, Document.double_ofDouble, Document.double_ofDouble]
  cases c.multiplier.isFinite with
  | false => simp
  | true =>
    cases c.constant.isFinite with
    | false => simp
    | true => simp [eq_comm]

end Constraint

end LayoutConstraints
