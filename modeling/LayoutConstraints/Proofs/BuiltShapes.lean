import LayoutConstraints.Proofs.Atomicity
import LayoutConstraints.Proofs.LastWriter
import LayoutConstraints.Proofs.Resolution

/-!
# The shapes of built expressions

The fields of an expression have room for more than can be built. A start
fills one slot on the left at most, and no step writes there. So an
expression that is built, by any steps with operands that are built, has a
single attribute there or a group or, if it was begun blank, neither; and
that is when it cannot be compiled.

On the right both slots may be filled, one after the other. A group gets
there in three ways: from a compound layout, from the left-hand side of an
operand, or as the markers of a comparison with a constant, one for each
attribute on the left. If nothing was begun blank or from a group of the
caller's own, each of these is as long as the group of a compound layout,
two or four, and no pairing comes out empty.

**Results.** `Built.attribute?`, `Built.group?`: the left-hand side is that
of the start. `Built.regular`: what holds of the groups. `Draft.exists_built`
and `Session.built_run`: drafts say expressions that are built, and sessions
store no others. `built_shapes` puts the parts together.
-/
namespace LayoutConstraints

variable {ε : Type}

/-- A single attribute, whichever it is, or a compound layout. -/
def Start.Standard : Start → Prop
  | single _ | compound _ => True
  | blank | group .. => False

theorem Compound.length_attributes (c : Compound) :
    c.attributes.length = 2 ∨ c.attributes.length = 4 := by
  cases c <;> decide

namespace Expression

/-- What steps make of a start if their operands are built as well. The starts,
also those of operands, are among the `allowed`. -/
inductive Built (allowed : Start → Prop) : Start → Expression ε → Prop where
  | start {s : Start} (h : allowed s) : Built allowed s s.expression
  | adjust {s : Start} {e : Expression ε} (h : Built allowed s e) (a : Adjustment ε) :
    Built allowed s (e.adjust a)
  | relate {s t : Start} {e operand : Expression ε} (h : Built allowed s e) (r : Relation)
    (ho : Built allowed t operand) : Built allowed s (e.relate r operand)

variable {allowed : Start → Prop} {start : Start} {e operand : Expression ε}

/-! ## The left-hand side -/

theorem Built.attribute? (h : Built allowed start e) : e.attribute? = start.single? := by
  induction h with
  | @start s _ => cases s <;> rfl
  | @adjust _ e _ a ih => exact (refine_attribute? e (.adjust a)).trans ih
  | relate _ _ _ ih => exact ih

theorem Built.group? (h : Built allowed start e) : e.group? = start.group? := by
  induction h with
  | @start s _ => cases s <;> rfl
  | @adjust _ e _ a ih => exact (refine_group? e (.adjust a)).trans ih
  | relate _ _ _ ih => exact ih

theorem Built.undefined_iff (h : Built allowed start e) : e.Undefined ↔ start = .blank := by
  rw [Undefined, h.attribute?, h.group?]
  cases start <;> simp [Start.single?, Start.group?]

/-! ## The groups -/

/-- Something stands on the left, and each group is as long as that of a
compound layout. -/
structure Regular (e : Expression ε) : Prop where
  defined : ¬ e.Undefined
  group (group : List Attribute) (h : e.group? = some group) :
    group.length = 2 ∨ group.length = 4
  otherGroup (group : List Attribute) (h : e.otherGroup? = some group) :
    group.length = 2 ∨ group.length = 4

theorem regular_start (h : start.Standard) : (start.expression : Expression ε).Regular := by
  cases start with
  | blank | group as other => cases h
  | single a => exact ⟨by simp [Undefined, Start.expression, ofAttribute], nofun, nofun⟩
  | compound c =>
    refine ⟨by simp [Undefined, Start.expression, ofGroup], ?_, ?_⟩
    · intro group hgroup
      cases hgroup
      exact c.length_attributes
    · intro group hgroup
      rw [Compound.length_others hgroup]
      exact c.length_attributes

/-- An adjustment leaves the group on the right as it was or writes one marker
for each attribute of the group on the left. -/
theorem adjust_otherGroup? (e : Expression ε) (a : Adjustment ε) :
    (e.adjust a).otherGroup? = e.otherGroup? ∨
      ∃ group, e.group? = some group ∧
        (e.adjust a).otherGroup? = some (List.replicate group.length .notAnAttribute) := by
  have hcompared (e : Expression ε) : e.againstConstant.otherGroup? = e.otherGroup? ∨
      ∃ group, e.group? = some group ∧
        e.againstConstant.otherGroup? = some (List.replicate group.length .notAnAttribute) := by
    unfold againstConstant
    split
    · exact .inl rfl
    · next group _ hgroup => exact .inr ⟨group, hgroup, rfl⟩
    · exact .inl rfl
  cases a with
  | equalToConstant c | atLeastConstant c | atMostConstant c =>
    exact hcompared { e with constant := c }
  | _ => exact .inl rfl

theorem Regular.adjust (h : e.Regular) (a : Adjustment ε) : (e.adjust a).Regular := by
  have hattribute : (e.adjust a).attribute? = e.attribute? := refine_attribute? e (.adjust a)
  have hgroup : (e.adjust a).group? = e.group? := refine_group? e (.adjust a)
  refine ⟨?_, fun group h' => h.group group (hgroup ▸ h'), fun group h' => ?_⟩
  · rw [Undefined, hattribute, hgroup]
    exact h.defined
  · rcases e.adjust_otherGroup? a with hsame | ⟨lefts, hlefts, hmarkers⟩
    · exact h.otherGroup group (hsame ▸ h')
    · obtain rfl := Option.some.inj (hmarkers.symm.trans h')
      rw [List.length_replicate]
      exact h.group lefts hlefts

theorem Regular.relate (h : e.Regular) (r : Relation) (ho : operand.Regular) :
    (e.relate r operand).Regular := by
  refine ⟨h.defined, h.group, fun group h' => ?_⟩
  cases hgroup : operand.group? with
  | some taken =>
    simp only [Expression.relate, hgroup, Option.some.injEq] at h'
    exact h' ▸ ho.group taken hgroup
  | none =>
    -- the operand writes the other slot, and the group stays
    simp only [Expression.relate, hgroup] at h'
    exact h.otherGroup group h'

theorem Built.regular (h : Built allowed start e) (hstandard : ∀ s, allowed s → s.Standard) :
    e.Regular := by
  induction h with
  | start hs => exact regular_start (hstandard _ hs)
  | adjust _ a ih => exact ih.adjust a
  | relate _ r _ ih iho => exact ih.relate r iho

/-! ## The number of constraints -/

theorem Regular.length_lefts (h : e.Regular) {as : List Attribute} (has : e.Lefts as) :
    as.length = 1 ∨ as.length = 2 ∨ as.length = 4 := by
  cases has with
  | group hg => exact .inr (h.group as hg)
  | single _ _ => exact .inl rfl

theorem Regular.length_rights (h : e.Regular) {bs : List Attribute} (hbs : e.Rights bs) :
    bs.length = 1 ∨ bs.length = 2 ∨ bs.length = 4 := by
  cases hbs with
  | otherGroup hg => exact .inr (h.otherGroup bs hg)
  | otherSingle _ _ | mirroredSingle _ _ _ => exact .inl rfl
  | mirroredGroup _ _ _ hg => exact .inr (h.group bs hg)

end Expression

theorem compile_regular {e : Expression ε} (h : e.Regular) {container? : ε → Option ε}
    {element container : ε} (hcontainer : container? element = some container) :
    ∃ cs, (compile container? element [e]).result = .ok cs ∧
      (cs.length = 1 ∨ cs.length = 2 ∨ cs.length = 4) ∧
      ∀ as, e.Lefts as → cs.length ≤ as.length := by
  obtain ⟨lefts, hlefts⟩ := Option.ne_none_iff_exists'.1 (mt Expression.undefined_iff.2 h.defined)
  refine ⟨_, compile_singleton hcontainer hlefts, ?_, fun as has => ?_⟩
  · have hl := h.length_lefts (Expression.lefts_iff.2 hlefts)
    have hr := h.length_rights ((Expression.rights_iff h.defined).2 rfl)
    rw [List.length_zipWith]
    omega
  · obtain rfl := Option.some.inj (hlefts.symm.trans (Expression.lefts_iff.1 has))
    rw [List.length_zipWith]
    exact Nat.min_le_left _ _

/-! ## Drafts and sessions -/

/-- A draft says an expression that is built, if those it names are. -/
theorem Draft.exists_built {bindings : String → Expression ε}
    (h : ∀ name, ∃ start, Expression.Built (fun _ => True) start (bindings name)) :
    ∀ d : Draft ε, ∃ start, Expression.Built (fun _ => True) start (d.eval bindings)
  | .start s => ⟨s, .start trivial⟩
  | .stored name => h name
  | .adjust base a => by
    obtain ⟨start, hbase⟩ := exists_built h base
    exact ⟨start, hbase.adjust a⟩
  | .relate base r operand => by
    obtain ⟨start, hbase⟩ := exists_built h base
    obtain ⟨_, hoperand⟩ := exists_built h operand
    exact ⟨start, hbase.relate r hoperand⟩

namespace Session

/-- The stored expressions are built. -/
def Built (s : Session) : Prop :=
  ∀ name, ∃ start, Expression.Built (fun _ => True) start (s.bindings name)

theorem built_ofTree (nodes : List (String × Option String)) : (ofTree nodes).Built :=
  fun _ => ⟨.blank, .start trivial⟩

theorem built_step {s : Session} (h : s.Built) (mode : Mode) (i : Instruction) :
    (s.step mode i).1.Built := by
  cases i with
  | store name draft =>
    intro n
    show ∃ start, Expression.Built _ start (update s.bindings name (draft.eval s.bindings) n)
    by_cases hn : n = name
    · rw [hn, update_same]
      exact draft.exists_built h
    · rw [update_of_ne hn]
      exact h n
  | compile layout save? =>
    intro n
    rw [step, perform, Effect.ofLayout, save_bindings]
    exact h n
  | apply layout save? route =>
    intro n
    rw [step, perform, Effect.ofLayout, save_bindings]
    exact h n
  | reparent | activate | deactivate | count => exact h

theorem built_run {s : Session} (h : s.Built) (mode : Mode) (is : List Instruction) :
    (s.run mode is).1.Built := by
  induction is generalizing s with
  | nil => exact h
  | cons i is ih => exact ih (built_step h mode i)

end Session

/-! ## All parts -/

/-- What can be said of an expression from the start it was built from, and from the
starts that were allowed. -/
structure BuiltShapes (allowed : Start → Prop) (start : Start) (e : Expression ε) : Prop where
  exclusive : ¬ (e.attribute?.isSome ∧ e.group?.isSome)
  fixed : ∀ s : Step ε, (e.refine s).attribute? = e.attribute? ∧ (e.refine s).group? = e.group?
  undefined_iff : ∀ (container? : ε → Option ε) (element : ε) (before after : List (Expression ε)),
    container? element ≠ none →
    ((compile container? element (before ++ e :: after)).result =
        .error (.undefinedAttribute before.length) ↔
      start = .blank ∧ ∀ d ∈ before, ¬ d.Undefined)
  groups : (∀ s, allowed s → s.Standard) →
    ∀ group, e.group? = some group ∨ e.otherGroup? = some group →
      group.length = 2 ∨ group.length = 4
  compiles : (∀ s, allowed s → s.Standard) →
    ∀ (container? : ε → Option ε) (element container : ε), container? element = some container →
      ∃ cs, (compile container? element [e]).result = .ok cs ∧
        (cs.length = 1 ∨ cs.length = 2 ∨ cs.length = 4) ∧
        ∀ as, e.Lefts as → cs.length ≤ as.length

/-- **The shapes of built expressions.** There is a single attribute on the
left or a group, never both, and no step makes a change there. In a layout
the expression is reported as undefined exactly if it was begun blank
and no earlier one is undefined. If it was built from single attributes and
compound layouts alone, every group has two entries or four, and it compiles
to one constraint, two or four, not more than there are attributes on the left. -/
theorem built_shapes {allowed : Start → Prop} {start : Start} {e : Expression ε}
    (h : Expression.Built allowed start e) : BuiltShapes allowed start e where
  exclusive := by
    rw [h.attribute?, h.group?]
    cases start <;> simp [Start.single?, Start.group?]
  fixed s := ⟨e.refine_attribute? s, e.refine_group? s⟩
  undefined_iff container? element before after hcontainer := by
    have hfirst : FirstUndefined (before ++ e :: after) before.length ↔
        start = .blank ∧ ∀ d ∈ before, ¬ d.Undefined := by
      rw [firstUndefined_length, h.undefined_iff]
    rw [compile_error, ← hfirst]
    simp [hcontainer]
  groups hstandard group hgroup :=
    hgroup.elim ((h.regular hstandard).group group) ((h.regular hstandard).otherGroup group)
  compiles hstandard _ _ _ hcontainer := compile_regular (h.regular hstandard) hcontainer

/-- A left and a right edge, compared with a number and then related to all four
edges, still compile to two constraints at most. -/
theorem built_shapes_horizontal :
    let sides : Expression String := (Start.compound .horizontal).expression
    let e := (sides.adjust (.atMostConstant .one)).relate .equal (Start.compound .flush).expression
    Expression.Built Start.Standard (.compound .horizontal) e ∧
      ∃ cs, (compile (fun _ => some "view") "label" [e]).result = .ok cs ∧
        (cs.length = 1 ∨ cs.length = 2 ∨ cs.length = 4) ∧ cs.length ≤ 2 := by
  intro sides e
  have hbuilt : Expression.Built Start.Standard (.compound .horizontal) e :=
    .relate (.adjust (.start trivial) _) _ (.start trivial)
  obtain ⟨cs, hcs, hlength, hle⟩ :=
    (built_shapes hbuilt).compiles (fun _ hs => hs) (fun _ => some "view") "label" "view" rfl
  exact ⟨hbuilt, cs, hcs, hlength, hle [.left, .right] (.group rfl)⟩

end LayoutConstraints
