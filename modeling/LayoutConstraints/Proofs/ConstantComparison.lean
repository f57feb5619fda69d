import LayoutConstraints.Proofs.LastWriter
import LayoutConstraints.Proofs.Resolution

/-!
# Comparing with a constant

A comparison with a constant is to fix a value: whatever the expression was
related to before, each attribute on the left faces the number alone. The
step writes `notAnAttribute` for that, one for each attribute on the left,
into one of the two slots on the right: the single one where the left-hand
side is a single attribute, the group where it is a group.

The group is read first. An expression over a group is safe, its own marker
being what is read. One over a single attribute is not: the group of an
operand it was once related to stays in the other slot and hides the
marker.

**Results.** `compare_fixes_iff`: after any chain of steps, a comparison
with a constant gives one fixed value per attribute on the left exactly if
the left-hand side is a group, or no operand had a group, or the last such
group happens to begin with `notAnAttribute`. Otherwise it relates the
attribute to the first one of that group, if there is any.
-/
namespace LayoutConstraints

variable {ε : Type}

/-! ## What is promised -/

/-- The comparison with a constant by each relation. -/
def Adjustment.compare (c : Double) : Relation → Adjustment ε
  | .equal => .equalToConstant c
  | .greaterOrEqual => .atLeastConstant c
  | .lessOrEqual => .atMostConstant c

/-- The attributes that a start puts on the left. -/
def Start.lefts : Start → List Attribute
  | blank => []
  | single a => [a]
  | group as _ => as
  | compound layout => layout.attributes

/-- A start, refined and then compared with a constant. -/
def Start.compared (start : Start) (steps : List (Step ε)) (r : Relation) (c : Double) :
    Expression ε :=
  start.expression.refineAll (steps ++ [.adjust (.compare c r)])

/-- The constraint relates `a` of the element to `b` with the constant `c`;
an inequality states its relation and resets the multiplier. -/
structure Constraint.Relates (element : ε) (r : Relation) (c : Double) (a b : Attribute)
    (k : Constraint ε) : Prop where
  element : k.element = element
  sourceAttribute : k.sourceAttribute = a
  targetAttribute : k.targetAttribute = b
  constant : k.constant = c
  bound : r ≠ .equal → k.relation = r ∧ k.multiplier = .one

/-- The constraint compares `a` of the element with the constant alone. -/
def Constraint.Fixes (element : ε) (r : Relation) (c : Double) (a : Attribute)
    (k : Constraint ε) : Prop :=
  k.Relates element r c a .notAnAttribute ∧ k.target? = none ∧ k.isFixedValue = true

/-- The group that an operand puts on the right. -/
def Step.takenGroup : Step ε → Option (List Attribute)
  | .relate _ operand => operand.group?
  | .adjust _ => none

/-! ## The compared expression -/

namespace Start

variable (start : Start) (steps : List (Step ε)) (r : Relation) (c : Double)

theorem compared_constant : (start.compared steps r c).constant = c := by
  rw [compared, Expression.refineAll_eq]
  cases r <;> simp [lastWrite_concat, Step.writesConstant, Adjustment.compare,
    Adjustment.comparedWith]

theorem compared_bound (hr : r ≠ .equal) :
    (start.compared steps r c).relation = r ∧ (start.compared steps r c).multiplier = .one := by
  rw [compared, Expression.refineAll_eq]
  cases r with
  | equal => exact absurd rfl hr
  | greaterOrEqual | lessOrEqual =>
    simp [lastWrite_concat, Step.writesRelation, Step.writesMultiplier, Adjustment.compare,
      Expression.relation, Expression.multiplier]

theorem compared_sources? (hs : start ≠ .blank) :
    (start.compared steps r c).sources? = some start.lefts := by
  rw [compared, Expression.refineAll_eq]
  cases start with
  | blank => exact absurd rfl hs
  | _ => rfl

/-- On a single attribute the groups of operands are all that is written
into the group on the right. -/
theorem lastWrite_otherGroup_single (a : Attribute) :
    lastWrite (Step.writesOtherGroup (some a) none) steps =
      (lastWrite Step.takenGroup steps).map some := by
  unfold lastWrite
  rw [List.map_findSome?]
  congr 1
  funext s
  cases s with
  | relate r operand =>
    cases h : operand.group? <;> simp [Step.writesOtherGroup, Step.takenGroup, h]
  | adjust b => cases h : b.comparedWith <;> simp [Step.writesOtherGroup, Step.takenGroup, h]

theorem compared_targets_single (a : Attribute) :
    ((single a).compared steps r c).targets =
      (lastWrite Step.takenGroup steps).getD [.notAnAttribute] := by
  rw [compared, Expression.refineAll_eq]
  have hw : Step.writesOtherGroup (some a) none (.adjust (.compare c r : Adjustment ε)) = none := by
    cases r <;> rfl
  have hm : Step.writesOtherAttribute (some a) (.adjust (.compare c r : Adjustment ε)) =
      some (some .notAnAttribute) := by
    cases r <;> rfl
  simp only [expression, Expression.ofAttribute, Expression.blank, lastWrite_concat, hw, hm,
    Option.none_or, lastWrite_otherGroup_single]
  cases lastWrite Step.takenGroup steps <;> rfl

theorem compared_targets_group (h : start.single? = none) (hs : start ≠ .blank) :
    (start.compared steps r c).targets = List.replicate start.lefts.length .notAnAttribute := by
  rw [compared, Expression.refineAll_eq]
  have hw (as : List Attribute) :
      Step.writesOtherGroup none (some as) (.adjust (.compare c r : Adjustment ε)) =
        some (some (List.replicate as.length .notAnAttribute)) := by
    cases r <;> rfl
  cases start with
  | blank => exact absurd rfl hs
  | single a => cases h
  | group as other | compound layout =>
    simp [expression, Expression.ofGroup, Expression.blank, lastWrite_concat, hw,
      Expression.targets, lefts]

end Start

/-! ## Its constraints -/

section

variable {container? : ε → Option ε} {element container : ε} {start : Start}
  {steps : List (Step ε)} {r : Relation} {c : Double} {a b : Attribute}

theorem relates_constraint :
    ((start.compared steps r c).constraint element container a b).Relates element r c a b :=
  ⟨rfl, rfl, rfl, start.compared_constant steps r c, start.compared_bound steps r c⟩

/-- Facing a marker is what makes the value fixed. -/
theorem isFixedValue_constraint {e : Expression ε} :
    (e.constraint element container a b).isFixedValue = true ↔ b = .notAnAttribute := by
  cases b <;> simp [Expression.constraint, Constraint.isFixedValue, Attribute.isReal]

theorem fixes_constraint_iff :
    ((start.compared steps r c).constraint element container a b).Fixes element r c a ↔
      b = .notAnAttribute := by
  refine ⟨fun h => h.1.targetAttribute, fun h => ?_⟩
  subst h
  exact ⟨relates_constraint, rfl, isFixedValue_constraint.2 rfl⟩

theorem forall₂_zipWith_replicate {α β γ : Type} {R : α → γ → Prop} {f : α → β → γ} {y : β}
    (h : ∀ x, R x (f x y)) :
    ∀ xs : List α, List.Forall₂ R xs (xs.zipWith f (List.replicate xs.length y))
  | [] => .nil
  | x :: xs => .cons (h x) (forall₂_zipWith_replicate h xs)

theorem compile_compared_group (h : container? element = some container)
    (hs : start ≠ .blank) (hg : start.single? = none) :
    ∃ cs, (compile container? element [start.compared steps r c]).result = .ok cs ∧
      List.Forall₂ (fun a k => k.Fixes element r c a) start.lefts cs := by
  refine ⟨_, compile_singleton h (start.compared_sources? steps r c hs), ?_⟩
  rw [start.compared_targets_group steps r c hg hs]
  exact forall₂_zipWith_replicate (fun a => fixes_constraint_iff.2 rfl) _

/-- A single attribute faces the first of the attributes that hide its marker. -/
theorem compile_compared_single (h : container? element = some container) :
    (compile container? element [(Start.single a).compared steps r c]).result =
      .ok ((((lastWrite Step.takenGroup steps).getD [.notAnAttribute]).take 1).map
        (((Start.single a).compared steps r c).constraint element container a)) := by
  rw [compile_singleton h ((Start.single a).compared_sources? steps r c (by simp)),
    Start.compared_targets_single]
  cases (lastWrite Step.takenGroup steps).getD [.notAnAttribute] <;> rfl

/-- The value is fixed if the first attribute that is read is the marker. -/
theorem compared_single_fixes_iff (h : container? element = some container) :
    (∃ cs, (compile container? element [(Start.single a).compared steps r c]).result = .ok cs ∧
        List.Forall₂ (fun a k => k.Fixes element r c a) [a] cs) ↔
      ((lastWrite Step.takenGroup steps).getD [.notAnAttribute]).head? = some .notAnAttribute := by
  rw [compile_compared_single h]
  cases (lastWrite Step.takenGroup steps).getD [.notAnAttribute] with
  | nil =>
    -- no record at all stands for the attribute
    refine ⟨fun hfixes => ?_, fun hhead => by cases hhead⟩
    obtain ⟨cs, hcs, hall⟩ := hfixes
    cases hcs
    cases hall
  | cons b bs =>
    refine ⟨fun hfixes => ?_, fun hhead => ?_⟩
    · obtain ⟨cs, hcs, hall⟩ := hfixes
      cases hcs
      cases hall with
      | cons hb _ => exact congrArg some (fixes_constraint_iff.1 hb)
    · exact ⟨_, rfl, .cons (fixes_constraint_iff.2 (Option.some.inj hhead)) .nil⟩

theorem compared_single_relates (h : container? element = some container)
    {group : List Attribute} (hgroup : lastWrite Step.takenGroup steps = some group) :
    ∃ cs, (compile container? element [(Start.single a).compared steps r c]).result = .ok cs ∧
      List.Forall₂
        (fun b k => k.Relates element r c a b ∧ (k.isFixedValue = true ↔ b = .notAnAttribute))
        (group.take 1) cs := by
  refine ⟨_, compile_compared_single h, ?_⟩
  rw [hgroup]
  cases group with
  | nil => exact .nil
  | cons b bs => exact .cons ⟨relates_constraint, isFixedValue_constraint⟩ .nil

/-- **When a comparison with a constant fixes the value.** It does unless the
left-hand side is a single attribute and the last group among the operands
begins with anything but the marker; that group is then what the attribute
is related to, as far as its first attribute. -/
theorem compare_fixes_iff (h : container? element = some container) (hs : start ≠ .blank)
    (steps : List (Step ε)) (r : Relation) (c : Double) :
    ((∃ cs, (compile container? element [start.compared steps r c]).result = .ok cs ∧
        List.Forall₂ (fun a k => k.Fixes element r c a) start.lefts cs) ↔
      ∀ a group, start = .single a → lastWrite Step.takenGroup steps = some group →
        group.head? = some .notAnAttribute) ∧
    ∀ a group, start = .single a → lastWrite Step.takenGroup steps = some group →
      ∃ cs, (compile container? element [start.compared steps r c]).result = .ok cs ∧
        List.Forall₂
          (fun b k => k.Relates element r c a b ∧ (k.isFixedValue = true ↔ b = .notAnAttribute))
          (group.take 1) cs := by
  refine ⟨⟨?_, fun hcond => ?_⟩, ?_⟩
  · intro hfixes a group ha hgroup
    subst ha
    have hhead := (compared_single_fixes_iff h).1 hfixes
    rwa [hgroup] at hhead
  · cases start with
    | blank => exact absurd rfl hs
    | group as other | compound layout => exact compile_compared_group h hs rfl
    | single a =>
      refine (compared_single_fixes_iff h).2 ?_
      cases hgroup : lastWrite Step.takenGroup steps with
      | none => rfl
      | some group => exact hcond a group rfl hgroup
  · intro a group ha hgroup
    subst ha
    exact compared_single_relates h hgroup

end

/-- A width once related to a height is fixed all the same. -/
theorem compare_fixes_width :
    ∃ cs, (compile (fun _ => some "view") "label"
        [(Start.single .width).compared [.relate .equal (.ofAttribute .height)] .lessOrEqual
          .one]).result = .ok cs ∧
      List.Forall₂ (fun a k => k.Fixes "label" .lessOrEqual .one a) [.width] cs :=
  (@compare_fixes_iff String (fun _ => some "view") "label" "view" (.single .width) rfl (by decide)
    _ _ _).1.2 fun a group _ hgroup => by cases hgroup

/-- A left edge once related to all four edges stays related to the first of
them, the top of the container, when it is compared with a constant. -/
theorem comparison_hidden_by_group :
    (compile (fun _ => some "view") "label"
        [(Start.single .left).compared [.relate .equal (Start.compound .flush).expression] .equal
          (.ofBits 0x4014000000000000)]).result =
      .ok [⟨"label", .left, .equal, some "view", .top, .one, .ofBits 0x4014000000000000, none⟩] ∧
    ¬ ∃ cs, (compile (fun _ => some "view") "label"
        [(Start.single .left).compared [.relate .equal (Start.compound .flush).expression] .equal
          (.ofBits 0x4014000000000000)]).result = .ok cs ∧
      List.Forall₂ (fun a k => k.Fixes "label" .equal (.ofBits 0x4014000000000000) a)
        [.left] cs := by
  refine ⟨rfl, ?_⟩
  intro hfixes
  obtain ⟨cs, hcs, hall⟩ := hfixes
  cases hcs
  cases hall with
  | cons hk _ => cases hk.1.targetAttribute

end LayoutConstraints
