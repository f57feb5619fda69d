import LayoutConstraints.Proofs.Stores

/-!
# What can be withdrawn again

A layout returns its constraints so that they can be withdrawn later. The
engine goes by equality for that: it drops whatever equals a constraint of
the set. So a constraint that does not equal itself is out of reach. It is
taken up, and from then on stays in force whatever is activated or dropped.

Such a constraint can be told from the expression it comes from. The
multiplier, the constant and the priority of an expression pass into each of
its constraints unchanged, and these three are where a NaN can be. An
expression that gives no constraint at all leaves nothing behind, equal to
itself or not.

**Results.** `Expression.holdsNaN_row`, `holdsNaN_compileJobs`: constraints
equal themselves as their expressions do. `Engine.withdrawn_drop_iff`,
`Session.withdrawn_iff`: what dropping a set leaves in force. With equality
as a partial equivalence they make `equality_gaps`.
-/
namespace LayoutConstraints

variable {ε : Type}

/-! ## From an expression to its constraints -/

namespace Expression

/-- A multiplier that is not set reads `1`, which is no NaN. -/
theorem isNaN_multiplier (e : Expression ε) :
    e.multiplier.isNaN = e.multiplier?.any (·.isNaN) := by
  unfold multiplier
  cases e.multiplier? <;> rfl

theorem holdsNaN_constraint (e : Expression ε) (element container : ε) (a b : Attribute) :
    (e.constraint element container a b).holdsNaN = e.holdsNaN := by
  rw [Constraint.holdsNaN, holdsNaN, ← isNaN_multiplier]
  rfl

theorem holdsNaN_row {element container : ε} {e : Expression ε} {cs : List (Constraint ε)}
    (h : e.Row element container cs) {c : Constraint ε} (hc : c ∈ cs) :
    c.holdsNaN = e.holdsNaN := by
  obtain ⟨a, b, rfl⟩ := eq_constraint_of_row h hc
  exact holdsNaN_constraint e element container a b

/-- Only an expression with a constraint shows in its constraints whether it
equals itself. -/
theorem beq_self_iff_row [BEq ε] [ReflBEq ε] {element container : ε} {e : Expression ε}
    {cs : List (Constraint ε)} (h : e.Row element container cs) (hne : cs ≠ []) :
    (e == e) = true ↔ ∀ c ∈ cs, (c == c) = true := by
  rw [beq_self_iff]
  constructor
  · intro he c hc
    rw [Constraint.beq_self_iff, holdsNaN_row h hc, he]
  · intro hall
    obtain ⟨c, hc⟩ := List.exists_mem_of_ne_nil cs hne
    rw [← holdsNaN_row h hc]
    exact Constraint.beq_self_iff.1 (hall c hc)

end Expression

theorem holdsNaN_compileJobs {container? : ε → Option ε} {jobs : List (Job ε)}
    {cs : List (Constraint ε)} (h : (compileJobs container? jobs).result = .ok cs) :
    (∀ c ∈ cs, c.holdsNaN = false) ↔
      ∀ job ∈ jobs, ∀ e row, job.Gives container? e row → row ≠ [] → e.holdsNaN = false := by
  constructor
  · intro hall job hjob e row hgives hne
    obtain ⟨container, -, hrow⟩ := compile_singleton_ok.1 hgives.2
    obtain ⟨c, hc⟩ := List.exists_mem_of_ne_nil row hne
    rw [← Expression.holdsNaN_row hrow hc]
    exact hall c ((mem_compileJobs h).2 ⟨job, hjob, e, row, hgives, hc⟩)
  · intro hall c hc
    obtain ⟨job, hjob, e, row, hgives, hc⟩ := (mem_compileJobs h).1 hc
    obtain ⟨container, -, hrow⟩ := compile_singleton_ok.1 hgives.2
    rw [Expression.holdsNaN_row hrow hc]
    exact hall job hjob e row hgives (List.ne_nil_of_mem hc)

/-! ## From a batch to the engine -/

namespace Engine

variable [BEq ε] {active batch : List (Constraint ε)} {c : Constraint ε}

/-- Nothing of the batch is in force, and nothing equal to it. -/
def Withdrawn (active batch : List (Constraint ε)) : Prop :=
  ∀ c ∈ batch, c ∉ active ∧ holds active c = false

variable [EquivBEq ε]

theorem mem_take_of_holdsNaN (hmem : c ∈ batch) (hc : c.holdsNaN = true) :
    c ∈ take active batch := by
  have hfilter : c ∈ (take active batch).filter Constraint.holdsNaN := by
    rw [filter_holdsNaN_take]
    exact List.mem_append_right _ (List.mem_filter.2 ⟨hmem, hc⟩)
  exact List.mem_of_mem_filter hfilter

theorem mem_drop_of_holdsNaN (hmem : c ∈ active) (hc : c.holdsNaN = true) :
    c ∈ drop active batch := by
  have hfilter : c ∈ (drop active batch).filter Constraint.holdsNaN := by
    rw [filter_holdsNaN_drop]
    exact List.mem_filter.2 ⟨hmem, hc⟩
  exact List.mem_of_mem_filter hfilter

/-- Dropping a batch withdraws it but for what holds a NaN. -/
theorem withdrawn_drop_iff :
    Withdrawn (drop active batch) batch ↔ ∀ c ∈ batch, c ∈ active → c.holdsNaN = false := by
  constructor
  · intro h c hc hactive
    rw [Bool.eq_false_iff]
    intro hnan
    exact (h c hc).1 (mem_drop_of_holdsNaN hactive hnan)
  · intro h c hc
    by_cases hnan : c.holdsNaN = true
    · refine ⟨fun hdrop => ?_, holds_of_holdsNaN hnan⟩
      exact Bool.eq_false_iff.1 (h c hc (mem_drop hdrop)) hnan
    · have hself : (c == c) = true := Constraint.beq_self_iff.2 (Bool.not_eq_true _ ▸ hnan)
      have hbatch : holds batch c = true := holds_iff.2 ⟨c, hc, hself⟩
      have hdropped : holds (drop active batch) c = false := by
        rw [holds_drop, hbatch, Bool.not_true, Bool.and_false]
      refine ⟨fun hdrop => ?_, hdropped⟩
      rw [holds_iff.2 ⟨c, hdrop, hself⟩] at hdropped
      cases hdropped

end Engine

theorem Batch.mem_commitAll_of_holdsNaN [BEq ε] [EquivBEq ε] {active : List (Constraint ε)}
    {c : Constraint ε} (hmem : c ∈ active) (hc : c.holdsNaN = true) (batches : List (Batch ε)) :
    c ∈ batches.foldl commit active := by
  have hfilter : c ∈ (batches.foldl commit active).filter Constraint.holdsNaN := by
    rw [filter_holdsNaN_commitAll]
    exact List.mem_append_left _ (List.mem_filter.2 ⟨hmem, hc⟩)
  exact List.mem_of_mem_filter hfilter

/-! ## Sessions -/

namespace Session

variable {s : Session} {mode : Mode} {layout : Layout} {save? : Option String} {route : Route}
  {asked? : Option (List String)} {cs : List (Constraint String)}

/-- What comes between installing a set and withdrawing it plays no part. -/
theorem withdrawn_iff
    (h : (s.step mode (.apply layout save? route)).2.outcome = .compiled asked? (.ok cs))
    {is : List Instruction} {sets : List String} (again : Route)
    (hsets : ((s.step mode (.apply layout save? route)).1.run mode is).1.savedAll sets = cs) :
    Engine.Withdrawn
        ((((s.step mode (.apply layout save? route)).1.run mode is).1.step mode
          (.deactivate sets again)).1.engine.active) cs ↔
      ∀ c ∈ cs, c.holdsNaN = false := by
  have hdropped (later : Session) :
      (later.step mode (.deactivate sets again)).1.engine.active =
        Engine.drop later.engine.active (later.savedAll sets) := by
    rw [step_active]
    rfl
  rw [hdropped, hsets, Engine.withdrawn_drop_iff, run_active, (step_apply_ok h).1]
  refine forall₂_congr fun c hc => ⟨fun hactive => ?_, fun hnan _ => hnan⟩
  rw [Bool.eq_false_iff]
  intro hnan
  have htaken : c ∈ Engine.take s.engine.active cs := Engine.mem_take_of_holdsNaN hc hnan
  have hkept := Batch.mem_commitAll_of_holdsNaN htaken hnan
  exact Bool.eq_false_iff.1 (hactive (hkept _)) hnan

end Session

/-! ## The gaps -/

/-- Equality holds in both directions and along chains, and of a thing with itself
just if it is `whole`. -/
structure PartialEquality (α : Type) [BEq α] (whole : α → Prop) : Prop where
  symm : ∀ a b : α, (a == b) = true → (b == a) = true
  trans : ∀ a b c : α, (a == b) = true → (b == c) = true → (a == c) = true
  self_iff : ∀ a : α, (a == a) = true ↔ whole a

/-- Where equality fails to be reflexive, and what comes of it. -/
structure EqualityGaps (ε : Type) [BEq ε] (container? : ε → Option ε) : Prop where
  expressions : PartialEquality (Expression ε) fun e =>
    (∀ m, e.multiplier? = some m → m.isNaN = false) ∧ e.constant.isNaN = false ∧
      ∀ p, e.priority? = some p → p.weight.isNaN = false
  constraints : PartialEquality (Constraint ε) fun c =>
    c.multiplier.isNaN = false ∧ c.constant.isNaN = false ∧
      ∀ p, c.priority? = some p → p.weight.isNaN = false
  compiled : ∀ (element : ε) (e : Expression ε) (cs : List (Constraint ε)),
    (compile container? element [e]).result = .ok cs → cs ≠ [] →
    ((e == e) = true ↔ ∀ c ∈ cs, (c == c) = true)
  withdrawn : ∀ (s : Session) (mode : Session.Mode) (layout : Layout) (save? : Option String)
    (route again : Route) (asked? : Option (List String)) (cs : List (Constraint String))
    (is : List Instruction) (sets : List String),
    let applied := s.step mode (.apply layout save? route)
    let later := (applied.1.run mode is).1
    applied.2.outcome = .compiled asked? (.ok cs) → later.savedAll sets = cs →
    (Engine.Withdrawn (later.step mode (.deactivate sets again)).1.engine.active cs ↔
      ∀ job ∈ layout.jobs s, ∀ e row, job.Gives s.container? e row → row ≠ [] → (e == e) = true)

/-- **The gaps of equality.** Expressions and constraints are equal in both
directions and along chains, and equal themselves unless they hold a NaN. An
expression that gives constraints equals itself exactly if they all do. So
the set an installed layout has returned can be withdrawn, whatever happens
in between, exactly if all its expressions that gave a constraint equal
themselves. -/
theorem equality_gaps [BEq ε] [EquivBEq ε] (container? : ε → Option ε) :
    EqualityGaps ε container? where
  expressions := by
    refine ⟨fun a b h => BEq.symm h, fun a b c h h' => BEq.trans h h', fun e => ?_⟩
    simp only [Expression.beq_self_iff, Expression.holdsNaN, Bool.or_eq_false_iff,
      Option.any_eq_false, and_assoc]
  constraints := by
    refine ⟨fun a b h => BEq.symm h, fun a b c h h' => BEq.trans h h', fun c => ?_⟩
    simp only [Constraint.beq_self_iff, Constraint.holdsNaN, Bool.or_eq_false_iff,
      Option.any_eq_false, and_assoc]
  compiled element e cs h hne := by
    obtain ⟨container, -, hrow⟩ := compile_singleton_ok.1 h
    exact Expression.beq_self_iff_row hrow hne
  withdrawn := by
    intro s mode layout save? route again asked? cs is sets applied later h hsets
    have houtcome := h
    rw [Session.outcome_apply] at houtcome
    have hrun := Session.compile_of_outcome houtcome
    rw [Layout.compile_eq_jobs] at hrun
    rw [Session.withdrawn_iff h again hsets, holdsNaN_compileJobs hrun]
    simp only [Expression.beq_self_iff]

/-- A width of NaN beside a left edge. The edge is withdrawn and the width is
not, and so it is with their expressions: one equals itself, one does not. -/
theorem equality_gaps_width :
    let s := Session.ofTree [("view", none), ("label", some "view")]
    let mode : Session.Mode := ⟨false, false⟩
    let width : Expression String := (Expression.ofAttribute .width).adjust (.equalToConstant .nan)
    let c : Constraint String := ⟨"label", .width, .equal, none, .notAnAttribute, .one, .nan, none⟩
    let d : Constraint String :=
      ⟨"label", .left, .equal, some "view", .left, .one, .zero, none⟩
    let layout := Layout.one "label"
      [.adjust (.start (.single .width)) (.equalToConstant .nan), .start (.single .left)]
    let applied := s.step mode (.apply layout (some "frame") .direct)
    let later := (applied.1.run mode [.reparent "label" none]).1
    let final := (later.step mode (.deactivate ["frame"] .forwarded)).1
    (width == width) = false ∧ (c == c) = false ∧ final.engine.active = [c] ∧
      ¬ Engine.Withdrawn final.engine.active [c, d] := by
  intro s mode width c d layout applied later final
  have gaps := @equality_gaps String _ _ s.container?
  have hwidth : ¬ (width == width) = true := by
    intro h
    exact absurd ((gaps.expressions.self_iff width).1 h).2.1 (by decide)
  have hrow : (compile s.container? "label" [width]).result = .ok [c] := rfl
  have hc : ¬ (c == c) = true := by
    intro h
    exact hwidth
      ((gaps.compiled "label" width [c] hrow (by simp)).2 (List.forall_mem_singleton.2 h))
  refine ⟨by simpa using hwidth, by simpa using hc, rfl, ?_⟩
  intro h
  have hall := (gaps.withdrawn s mode layout (some "frame") .direct .forwarded none [c, d]
    [.reparent "label" none] ["frame"] rfl rfl).1 h
  exact hwidth (hall ⟨"label", _⟩ List.mem_cons_self width [c] ⟨List.mem_cons_self, hrow⟩ (by simp))

end LayoutConstraints
