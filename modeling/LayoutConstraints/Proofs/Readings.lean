import LayoutConstraints.Compilation
import LayoutConstraints.Proofs.LastWriter
import Mathlib.Data.List.Forall2

/-!
# What cannot be read makes no difference

Nine readings are all that an expression shows. Seven of them are fields as
they are stored. The relation and the multiplier are read through their
defaults, so an unset relation cannot be told from `==`, nor an unset
multiplier from `1`.

Compiling cannot tell them apart either, as it goes by the readings. Neither
can a step: what it writes into a field depends on the left-hand side and on
its operand, never on what a field is unset or set to. A difference comes to
light in one place alone. A multiplier is taken over from an operand only if
it is set there, so an operand with an explicit `1` resets the multiplier of
the expression it is related to, and one that merely reads `1` does not.

**Results.** `Alike.compile_eq`, `Alike.refineAll` for expressions with the
same readings, compiled and refined; `Alike.relate` and
`Alike.multiplier_relate_ne_iff` for such operands. Together they make
`readings_suffice`.
-/
namespace LayoutConstraints

variable {ε : Type}

namespace Expression

/-- All readings agree, except perhaps that of the multiplier. -/
structure AlikeButMultiplier (e e' : Expression ε) : Prop where
  single : e.attribute? = e'.attribute?
  group : e.group? = e'.group?
  relation : e.relation = e'.relation
  target : e.target? = e'.target?
  otherSingle : e.otherAttribute? = e'.otherAttribute?
  otherGroup : e.otherGroup? = e'.otherGroup?
  constant : e.constant = e'.constant
  priority : e.priority? = e'.priority?

/-- All nine readings agree. -/
structure Alike (e e' : Expression ε) : Prop extends AlikeButMultiplier e e' where
  multiplier : e.multiplier = e'.multiplier

/-! ## Compiling -/

section

variable {e e' : Expression ε}

theorem Alike.sources_eq (h : e.Alike e') : e.sources? = e'.sources? := by
  rw [sources?, sources?, h.group, h.single]

theorem Alike.targets_eq (h : e.Alike e') : e.targets = e'.targets := by
  rw [targets, targets, h.otherGroup, h.otherSingle, h.single, h.group]

theorem Alike.constraint_eq (h : e.Alike e') (element container : ε) :
    e.constraint element container = e'.constraint element container := by
  funext a b
  rw [constraint, constraint, h.relation, h.target, h.multiplier, h.constant, h.priority]

theorem Alike.compile_eq (h : e.Alike e') (element container : ε) (index : Nat) :
    e.compile element container index = e'.compile element container index := by
  rw [compile, compile, h.sources_eq, h.targets_eq, h.constraint_eq]

/-! ## Steps -/

/-- What is written over both values is read from both. -/
theorem reading_of_written {α : Type} {x y : Option α} {d : α} (h : x.getD d = y.getD d)
    (written : Option (Option α)) : (written.getD x).getD d = (written.getD y).getD d := by
  cases written with
  | none => exact h
  | some z => rfl

/-- No induction is needed: the last writers of both chains are the same. -/
theorem Alike.refineAll (h : e.Alike e') (steps : List (Step ε)) :
    (e.refineAll steps).Alike (e'.refineAll steps) := by
  rw [refineAll_eq, refineAll_eq, ← h.single, ← h.group]
  exact
    { single := rfl
      group := rfl
      relation := reading_of_written h.relation _
      target := congrArg (Option.getD _) h.target
      otherSingle := congrArg (Option.getD _) h.otherSingle
      otherGroup := congrArg (Option.getD _) h.otherGroup
      constant := congrArg (Option.getD _) h.constant
      priority := congrArg (Option.getD _) h.priority
      multiplier := reading_of_written h.multiplier _ }

/-! ## Operands -/

variable {a : Expression ε} {r : Relation}

theorem Alike.relate (h : e.Alike e') (a : Expression ε) (r : Relation) :
    (a.relate r e).AlikeButMultiplier (a.relate r e') where
  single := rfl
  group := rfl
  relation := rfl
  target := h.target
  otherSingle := by simp only [Expression.relate, h.group, h.single]
  otherGroup := by simp only [Expression.relate, h.group]
  constant := by simp only [Expression.relate, h.constant]
  priority := rfl

theorem multiplier_relate_unset (h : e.multiplier? = none) :
    (a.relate r e).multiplier = a.multiplier := by
  simp only [multiplier, Expression.relate, h]

theorem multiplier_relate_one (h : e.multiplier? = some .one) :
    (a.relate r e).multiplier = .one := by
  have hone : (Binary.one : Double).isZero = false := by decide
  simp [multiplier, Expression.relate, h, hone]

/-- Both operands set the multiplier alike, or one sets it to the `1` that the
other only reads. -/
theorem Alike.multiplier_cases (h : e.Alike e') :
    e.multiplier? = e'.multiplier? ∨
      e.multiplier? = none ∧ e'.multiplier? = some .one ∨
      e.multiplier? = some .one ∧ e'.multiplier? = none := by
  have hread := h.multiplier
  unfold Expression.multiplier at hread
  cases hm : e.multiplier? with
  | none =>
    cases hm' : e'.multiplier? with
    | none => exact .inl rfl
    | some m' =>
      rw [hm, hm'] at hread
      exact .inr (.inl ⟨rfl, congrArg some hread.symm⟩)
  | some m =>
    cases hm' : e'.multiplier? with
    | none =>
      rw [hm, hm'] at hread
      exact .inr (.inr ⟨congrArg some hread, rfl⟩)
    | some m' =>
      rw [hm, hm'] at hread
      exact .inl (congrArg some hread)

theorem Alike.multiplier_relate_ne_iff (h : e.Alike e') (a : Expression ε) (r : Relation) :
    (a.relate r e).multiplier ≠ (a.relate r e').multiplier ↔
      (e.multiplier? = none ∧ e'.multiplier? = some .one ∨
        e.multiplier? = some .one ∧ e'.multiplier? = none) ∧ a.multiplier ≠ .one := by
  rcases h.multiplier_cases with hsame | ⟨hunset, hone⟩ | ⟨hone, hunset⟩
  · have hmerged : (a.relate r e).multiplier = (a.relate r e').multiplier := by
      simp only [Expression.multiplier, Expression.relate, hsame]
    rw [hmerged, hsame]
    cases e'.multiplier? <;> simp
  · rw [multiplier_relate_unset hunset, multiplier_relate_one hone]
    simp [hunset, hone]
  · rw [multiplier_relate_one hone, multiplier_relate_unset hunset]
    simp [hunset, hone, eq_comm]

end

end Expression

/-! ## Layouts -/

theorem compileFrom_alike {es es' : List (Expression ε)}
    (h : List.Forall₂ Expression.Alike es es') (element container : ε) (index : Nat) :
    compileFrom element container index es = compileFrom element container index es' := by
  induction h generalizing index with
  | nil => rfl
  | cons he _ ih => rw [compileFrom, compileFrom, he.compile_eq, ih]

theorem compile_alike {es es' : List (Expression ε)} (h : List.Forall₂ Expression.Alike es es')
    (container? : ε → Option ε) (element : ε) :
    compile container? element es = compile container? element es' := by
  unfold compile
  cases container? element with
  | none => rfl
  | some container => simp only [compileFrom_alike h, h.length_eq]

/-- **Readings suffice.** Layouts of expressions with the same readings
compile to the same result with the same log. Chains of the same steps keep
such expressions alike. Related to by the same expression they leave it
alike too, except in the multiplier; and there it differs exactly if one of
them sets an explicit `1`, the other sets none, and the expression has
another multiplier of its own. -/
theorem readings_suffice (container? : ε → Option ε) :
    (∀ (element : ε) (es es' : List (Expression ε)), List.Forall₂ Expression.Alike es es' →
      compile container? element es = compile container? element es') ∧
    (∀ (e e' : Expression ε) (steps : List (Step ε)), e.Alike e' →
      (e.refineAll steps).Alike (e'.refineAll steps)) ∧
    (∀ (a e e' : Expression ε) (r : Relation), e.Alike e' →
      (a.relate r e).AlikeButMultiplier (a.relate r e') ∧
        ((a.relate r e).multiplier ≠ (a.relate r e').multiplier ↔
          (e.multiplier? = none ∧ e'.multiplier? = some .one ∨
            e.multiplier? = some .one ∧ e'.multiplier? = none) ∧ a.multiplier ≠ .one)) := by
  refine ⟨fun element es es' h => compile_alike h container? element,
    fun e e' steps h => h.refineAll steps, ?_⟩
  intro a e e' r h
  exact ⟨h.relate a r, h.multiplier_relate_ne_iff a r⟩

/-- An explicit `1` is compiled and refined as an unset multiplier is, and yet
comes to light in a width that is twice the operand's. -/
theorem readings_suffice_width :
    let unset : Expression String := .ofAttribute .width
    let explicit : Expression String := unset.adjust (.times .one)
    let twice : Expression String := unset.adjust (.times (.ofBits 0x4000000000000000))
    unset.Alike explicit ∧
      compile (fun _ => some "view") "label" [unset] =
        compile (fun _ => some "view") "label" [explicit] ∧
      (unset.refineAll [.relate .lessOrEqual twice]).Alike
        (explicit.refineAll [.relate .lessOrEqual twice]) ∧
      (twice.relate .equal unset).multiplier ≠ (twice.relate .equal explicit).multiplier := by
  intro unset explicit twice
  have halike : unset.Alike explicit := ⟨⟨rfl, rfl, rfl, rfl, rfl, rfl, rfl, rfl⟩, rfl⟩
  obtain ⟨hcompile, hrefine, hrelate⟩ := @readings_suffice String fun _ => some "view"
  refine ⟨halike, hcompile "label" _ _ (.cons halike .nil), hrefine _ _ _ halike, ?_⟩
  exact (hrelate twice unset explicit .equal halike).2.2 ⟨.inl ⟨rfl, rfl⟩, by decide⟩

end LayoutConstraints
