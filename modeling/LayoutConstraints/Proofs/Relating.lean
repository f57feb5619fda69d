import LayoutConstraints.Expression.Step
import LayoutConstraints.Proofs.Resolution

/-!
# Relating an expression once more

An expression that is related to another operand than before should forget
the first. Its relation and target are written each time. Its constant and
multiplier are too, if the second operand has numbers of its own: a constant
that is not zero and a multiplier that is set and not zero.

The right-hand attributes are kept in two slots, one for a single attribute
and one for a group, and an operand writes one of them. The group is read
first. So an operand with a group hides whatever is in the other slot, and
one without leaves the group of an earlier operand in force: the constraints
are then about the second operand's target, by its numbers, and still about
the first one's attributes.

**Results.** `relate_relate`: what the second operand leaves of the first.
`relate_again`: it makes no difference to any layout, or just that of the
group.
-/
namespace LayoutConstraints

variable {ε : Type}

namespace Expression

/-- Both sides and what is said of a pair are all that compiling goes by. -/
theorem compile_eq_of_sides {e e' : Expression ε} (hsources : e.sources? = e'.sources?)
    (htargets : e.targets = e'.targets) (hconstraint : e.constraint = e'.constraint)
    (element container : ε) (index : Nat) :
    e.compile element container index = e'.compile element container index := by
  rw [compile, compile, hsources, htargets, hconstraint]

section

variable {a b c e : Expression ε} {r s : Relation} {m : Double} {group : List Attribute}

theorem relate_constant (hc : c.constant.isZero = false) : (e.relate s c).constant = c.constant := by
  simp only [relate, hc, Bool.false_eq_true, if_false]

theorem relate_multiplier (hm : c.multiplier? = some m) (hz : m.isZero = false) :
    (e.relate s c).multiplier? = some m := by
  simp only [relate, hm, hz, Bool.false_eq_true, if_false]

theorem targets_relate_group (h : c.group? = some group) : (e.relate s c).targets = group := by
  simp only [relate, h, targets]

/-- A group that is there already is read in place of the operand's attribute. -/
theorem targets_relate_single (h : c.group? = none) (he : e.otherGroup? = some group) :
    (e.relate s c).targets = group := by
  simp only [relate, h, he, targets]

/-- Nothing is left of the first operand but what it has put into the slot that
the second does not write. -/
theorem relate_relate (hc : c.constant.isZero = false) (hm : c.multiplier? = some m)
    (hz : m.isZero = false) :
    (a.relate r b).relate s c =
      { a.relate s c with
        otherAttribute? :=
          match c.group? with
          | some _ => (a.relate r b).otherAttribute?
          | none => c.attribute?
        otherGroup? :=
          match c.group? with
          | some group => some group
          | none => (a.relate r b).otherGroup? } := by
  unfold relate
  cases c.group? <;> simp only [hc, hm, hz, Bool.false_eq_true, if_false]

/-- What the first operand has left cannot be told. -/
theorem compile_relate_relate (hc : c.constant.isZero = false) (hm : c.multiplier? = some m)
    (hz : m.isZero = false) (h : c.group?.isSome ∨ b.group? = none) (element container : ε)
    (index : Nat) :
    ((a.relate r b).relate s c).compile element container index =
      (a.relate s c).compile element container index := by
  have hrelated := @relate_relate _ a b c r s m hc hm hz
  cases hg : c.group? with
  | some group =>
    -- The other slot may differ, but a group hides it.
    refine compile_eq_of_sides ?_ ?_ ?_ element container index
    · rfl
    · rw [targets_relate_group hg, targets_relate_group hg]
    · rw [hrelated]
      rfl
  | none =>
    have hb : b.group? = none := h.resolve_left (by simp [hg])
    have hsame : (a.relate r b).relate s c = a.relate s c := by
      rw [hrelated]
      simp only [relate, hg, hb]
    rw [hsame]

end

end Expression

/-! ## Once more -/

/-- **Relating an expression once more.** An operand with numbers of its own makes
every layout forget the operand before it, if it has a group or the other
had none. If the other alone had a group, the new operand has its way in relation,
target, constant and multiplier; but the attributes on the left still face
that group, and its own attribute is not used. Either way the layout of the
expression fails where that of its left-hand side does. -/
theorem relate_again (container? : ε → Option ε) (element : ε) {a b c : Expression ε}
    (r s : Relation) {m : Double} (hc : c.constant.isZero = false) (hm : c.multiplier? = some m)
    (hz : m.isZero = false) :
    let twice := (a.relate r b).relate s c
    ((c.group?.isSome ∨ b.group? = none) → ∀ before after,
      compile container? element (before ++ twice :: after) =
        compile container? element (before ++ a.relate s c :: after)) ∧
    (∀ f, (compile container? element [twice]).result = .error f ↔
      (compile container? element [a]).result = .error f) ∧
    ∀ group, b.group? = some group → c.group? = none →
      (twice.relation? = some s ∧ twice.target? = c.target? ∧ twice.constant = c.constant ∧
        twice.multiplier? = c.multiplier?) ∧
      (∀ container as, container? element = some container → a.Lefts as →
        ∃ cs, (compile container? element [twice]).result = .ok cs ∧
          cs.length = min as.length group.length ∧
          ∀ (k : Nat) (x y : Attribute), as[k]? = some x → group[k]? = some y →
            cs[k]? = some
              ({ element := element
                 sourceAttribute := x
                 relation := s
                 target? := if y = .notAnAttribute then none else some (c.target?.getD container)
                 targetAttribute := y
                 multiplier := m
                 constant := c.constant
                 priority? := a.priority? } : Constraint ε)) ∧
      ∀ single? before after,
        compile container? element
            (before ++ (a.relate r b).relate s { c with attribute? := single? } :: after) =
          compile container? element (before ++ twice :: after) := by
  intro twice
  refine ⟨?_, ?_, ?_⟩
  · intro h before after
    exact compile_replace (Expression.compile_relate_relate hc hm hz h) container? element before after
  · intro f
    simp only [compile_error, firstUndefined_singleton]
    exact Iff.rfl
  · intro group hb hg
    have hstale : (a.relate r b).otherGroup? = some group := by
      simp only [Expression.relate, hb]
    have htargets : twice.targets = group := Expression.targets_relate_single hg hstale
    have hmultiplier : twice.multiplier? = some m := Expression.relate_multiplier hm hz
    have hconstant : twice.constant = c.constant := Expression.relate_constant hc
    refine ⟨⟨rfl, rfl, hconstant, hmultiplier.trans hm.symm⟩, ?_, ?_⟩
    · intro container as hcontainer has
      have hsources : a.sources? = some as := Expression.lefts_iff.1 has
      refine ⟨_, compile_singleton hcontainer (e := twice) hsources, ?_, ?_⟩
      · rw [htargets, List.length_zipWith]
      · intro k x y hx hy
        rw [htargets, List.getElem?_zipWith, hx, hy]
        simp only [Expression.constraint, Expression.target_eq, Expression.multiplier, hmultiplier,
          hconstant, Option.getD_some]
        rfl
    · intro single? before after
      refine compile_replace (Expression.compile_eq_of_sides ?_ ?_ ?_) container? element before after
      · rfl
      · rw [htargets]
        exact Expression.targets_relate_single hg hstale
      · rfl

/-- A left edge is related to the right edge of another element, with a factor and an
offset. What it was related to before is forgotten if that was a single
edge; if it was all four edges, the left edge still faces the top, now of
the other element. -/
theorem relate_again_stale :
    let left : Expression String := .ofAttribute .left
    let edges : Expression String := .ofGroup [.top, .left, .bottom, .right] none
    let right : Expression String := (Expression.ofAttribute .right).refineAll
      [.adjust (.of "image"), .adjust (.times (.ofBits 0x4000000000000000)), .adjust (.plus .one)]
    let lay (e : Expression String) := compile (fun _ => some "view") "label" [e]
    lay ((left.relate .equal left).relate .lessOrEqual right) = lay (left.relate .lessOrEqual right) ∧
      ∃ cs, (lay ((left.relate .equal edges).relate .lessOrEqual right)).result = .ok cs ∧
        cs.length = 1 ∧ cs[0]? = some
          ⟨"label", .left, .lessOrEqual, some "image", .top, .ofBits 0x4000000000000000, .one,
            none⟩ := by
  intro left edges right lay
  have hc : right.constant.isZero = false := by decide
  have hz : (Binary.ofBits 0x4000000000000000 : Double).isZero = false := by decide
  have forgotten := (relate_again (fun _ => some "view") "label" (a := left) (b := left) .equal
    .lessOrEqual hc rfl hz).1
  have stale := (relate_again (fun _ => some "view") "label" (a := left) (b := edges) .equal
    .lessOrEqual hc rfl hz).2.2 _ rfl rfl
  refine ⟨forgotten (.inr rfl) [] [], ?_⟩
  obtain ⟨cs, hcs, hlength, hget⟩ := stale.2.1 "view" [.left] rfl (.single rfl rfl)
  exact ⟨cs, hcs, hlength, hget 0 .left .top rfl rfl⟩

end LayoutConstraints
