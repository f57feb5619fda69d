import LayoutConstraints.Proofs.Resolution

/-!
# A layout is made of its parts

A layout has two arguments that are lists: the elements and the
expressions. Both can be cut.

* Cut along the expressions, the parts of one element's layout come one
  after the other, and the positions in the second part are counted on from
  the end of the first. So its failure is not the one it has on its own.
* Cut along the elements, the parts of a layout for many elements come one
  after the other and nothing is counted on, as each element has the same
  expressions.
* Cut along the expressions, the parts of a layout for many elements do not
  come one after the other. Each element has its constraints from the first
  part before those from the second, and then comes the next element: the
  constraints of both parts are interleaved.

**Results.** `compile_append`, `compileAll_append_elements` for the first two
cuts. `compileAll_append_ok` and `exists_compileAll_append` for the third.
Together they make `compile_compositional`.
-/
namespace LayoutConstraints

variable {ε : Type}

/-! ## One part after the other -/

/-- The failure of expressions that stand behind so many others. -/
def Failure.behind (count : Nat) : Failure → Failure
  | missingContainer => missingContainer
  | undefinedAttribute index => undefinedAttribute (count + index)

/-- What two parts, one after the other, come to: the first failure, or else
the constraints of both. -/
def joined (first second : Except Failure (List (Constraint ε))) :
    Except Failure (List (Constraint ε)) :=
  match first, second with
  | .error f, _ => .error f
  | .ok _, .error f => .error f
  | .ok as, .ok bs => .ok (as ++ bs)

theorem Compilation.result_append (a b : Compilation ε) :
    (a ++ b).result = joined a.result b.result := by
  show (append a b).result = _
  unfold append joined
  split <;> simp_all

/-- Numbering from another position moves the position of a failure and nothing
else. -/
theorem result_compileFrom (element container : ε) (count : Nat) (es : List (Expression ε)) :
    (compileFrom element container count es).result =
      (compileFrom element container 0 es).result.mapError (Failure.behind count) := by
  cases h : (compileFrom element container 0 es).result with
  | ok cs => exact compileFrom_ok.2 (compileFrom_ok.1 h)
  | error f =>
    obtain ⟨k, rfl, hk⟩ := compileFrom_error.1 h
    exact compileFrom_error.2 ⟨k, by simp [Failure.behind], hk⟩

theorem compile_append (container? : ε → Option ε) (element : ε) (xs ys : List (Expression ε)) :
    (compile container? element (xs ++ ys)).result =
      joined (compile container? element xs).result
        ((compile container? element ys).result.mapError (Failure.behind xs.length)) := by
  cases h : container? element with
  | none =>
    rw [compile_of_no_container h, compile_of_no_container h]
    rfl
  | some container =>
    rw [compile_of_container h, compile_of_container h, compile_of_container h, compileFrom_append,
      Compilation.result_append, Nat.zero_add, result_compileFrom element container xs.length]

theorem compileAll_append_elements (container? : ε → Option ε) (elements others : List ε)
    (xs : List (Expression ε)) :
    compileAll container? (elements ++ others) xs =
      compileAll container? elements xs ++ compileAll container? others xs := by
  induction elements with
  | nil => exact (Compilation.empty_append _).symm
  | cons element rest ih =>
    rw [List.cons_append, compileAll, compileAll, ih, Compilation.append_assoc]

/-! ## Interleaved parts -/

/-- The third list is made up of the other two, each in its order. -/
inductive Interleaved {α : Type} : List α → List α → List α → Prop where
  | nil : Interleaved [] [] []
  | left {a : α} {as bs cs : List α} (h : Interleaved as bs cs) :
    Interleaved (a :: as) bs (a :: cs)
  | right {b : α} {as bs cs : List α} (h : Interleaved as bs cs) :
    Interleaved as (b :: bs) (b :: cs)

namespace Interleaved

variable {α : Type} {as bs cs : List α}

theorem perm (h : Interleaved as bs cs) : cs.Perm (as ++ bs) := by
  induction h with
  | nil => exact .nil
  | left _ ih => exact ih.cons _
  | right _ ih => exact (ih.cons _).trans List.perm_middle.symm

/-- What comes first may come from both lists, one after the other. -/
theorem append (h : Interleaved as bs cs) (xs ys : List α) :
    Interleaved (xs ++ as) (ys ++ bs) (xs ++ ys ++ cs) := by
  induction xs with
  | cons x xs ih => exact .left ih
  | nil =>
    induction ys with
    | nil => exact h
    | cons y ys ih => exact .right ih

end Interleaved

section

variable {container? : ε → Option ε} {element : ε} {elements : List ε}
  {xs ys : List (Expression ε)} {as bs cs : List (Constraint ε)}

theorem compile_append_ok :
    (compile container? element (xs ++ ys)).result = .ok cs ↔
      ∃ as bs, (compile container? element xs).result = .ok as ∧
        (compile container? element ys).result = .ok bs ∧ cs = as ++ bs := by
  rw [compile_append]
  cases (compile container? element xs).result <;>
    cases (compile container? element ys).result <;> simp [joined, Except.mapError, eq_comm]

/-- Element by element, the constraints of both parts. -/
theorem compileAll_append_ok
    (h : (compileAll container? elements (xs ++ ys)).result = .ok cs) :
    ∃ as bs, (compileAll container? elements xs).result = .ok as ∧
      (compileAll container? elements ys).result = .ok bs ∧ Interleaved as bs cs := by
  induction elements generalizing cs with
  | nil =>
    cases h
    exact ⟨[], [], rfl, rfl, .nil⟩
  | cons element rest ih =>
    obtain ⟨row, others, hrow, hothers, rfl⟩ := Compilation.result_append_ok.1 h
    obtain ⟨as, bs, has, hbs, rfl⟩ := compile_append_ok.1 hrow
    obtain ⟨as', bs', has', hbs', hinter⟩ := ih hothers
    exact ⟨as ++ as', bs ++ bs', Compilation.result_append_ok.2 ⟨as, as', has, has', rfl⟩,
      Compilation.result_append_ok.2 ⟨bs, bs', hbs, hbs', rfl⟩, hinter.append as bs⟩

theorem exists_compileAll_append (hxs : (compileAll container? elements xs).result = .ok as)
    (hys : (compileAll container? elements ys).result = .ok bs) :
    ∃ cs, (compileAll container? elements (xs ++ ys)).result = .ok cs := by
  induction elements generalizing as bs with
  | nil => exact ⟨[], rfl⟩
  | cons element rest ih =>
    obtain ⟨row, others, hrow, hothers, -⟩ := Compilation.result_append_ok.1 hxs
    obtain ⟨row', others', hrow', hothers', -⟩ := Compilation.result_append_ok.1 hys
    obtain ⟨cs, hcs⟩ := ih hothers hothers'
    have hfirst : (compile container? element (xs ++ ys)).result = .ok (row ++ row') :=
      compile_append_ok.2 ⟨row, row', hrow, hrow', rfl⟩
    exact ⟨row ++ row' ++ cs, Compilation.result_append_ok.2 ⟨_, _, hfirst, hcs, rfl⟩⟩

end

/-! ## Both arguments -/

/-- **Layouts are compositional.** For one element the expressions can be cut
anywhere: the first part fails as on its own, the second with its position
counted on from the first, and else the constraints of both are joined. For
many elements the list of elements can be cut anywhere, and failures stay as
they are. If the expressions are cut, the layout succeeds exactly if both
parts do, and its constraints are those of the parts, interleaved. -/
theorem compile_compositional (container? : ε → Option ε) :
    (∀ element xs ys,
      (compile container? element (xs ++ ys)).result =
        joined (compile container? element xs).result
          ((compile container? element ys).result.mapError (Failure.behind xs.length)) ∧
      ∀ as, (compile container? element xs).result = .ok as →
        (compile container? element ys).result ≠ .error .missingContainer) ∧
    (∀ elements others xs,
      (compileAll container? (elements ++ others) xs).result =
        joined (compileAll container? elements xs).result
          (compileAll container? others xs).result) ∧
    ∀ elements xs ys,
      ((∃ cs, (compileAll container? elements (xs ++ ys)).result = .ok cs) ↔
        (∃ as, (compileAll container? elements xs).result = .ok as) ∧
          ∃ bs, (compileAll container? elements ys).result = .ok bs) ∧
      ∀ as bs cs, (compileAll container? elements xs).result = .ok as →
        (compileAll container? elements ys).result = .ok bs →
        (compileAll container? elements (xs ++ ys)).result = .ok cs →
        cs.Perm (as ++ bs) ∧ Interleaved as bs cs := by
  refine ⟨fun element xs ys => ⟨compile_append container? element xs ys, ?_⟩, ?_, ?_⟩
  · intro as has hys
    obtain ⟨-, hnone⟩ | ⟨index, hindex, -⟩ := compile_error.1 hys
    · rw [compile_of_no_container hnone] at has
      cases has
    · cases hindex
  · intro elements others xs
    rw [compileAll_append_elements, Compilation.result_append]
  · intro elements xs ys
    refine ⟨⟨fun h => ?_, fun h => ?_⟩, ?_⟩
    · obtain ⟨cs, hcs⟩ := h
      obtain ⟨as, bs, has, hbs, -⟩ := compileAll_append_ok hcs
      exact ⟨⟨as, has⟩, bs, hbs⟩
    · obtain ⟨⟨as, has⟩, bs, hbs⟩ := h
      exact exists_compileAll_append has hbs
    · intro as bs cs has hbs hcs
      obtain ⟨as', bs', has', hbs', hinter⟩ := compileAll_append_ok hcs
      cases has.symm.trans has'
      cases hbs.symm.trans hbs'
      exact ⟨hinter.perm, hinter⟩

/-- Two elements laid out by a top and a left edge have both edges in turn. An
expression that is undefined at its second position fails at the third, once
another stands before it. -/
theorem compile_compositional_edges :
    let top : Expression String := .ofAttribute .top
    let left : Expression String := .ofAttribute .left
    let edge (element : String) (a : Attribute) : Constraint String :=
      ⟨element, a, .equal, some "view", a, .one, .zero, none⟩
    let both := compileAll (fun _ => some "view") ["label", "image"] ([top] ++ [left])
    both.result =
        .ok [edge "label" .top, edge "label" .left, edge "image" .top, edge "image" .left] ∧
      Interleaved [edge "label" .top, edge "image" .top] [edge "label" .left, edge "image" .left]
        [edge "label" .top, edge "label" .left, edge "image" .top, edge "image" .left] ∧
      (compile (fun _ => some "view") "label" ([top] ++ [left, .blank])).result =
        .error (.undefinedAttribute 2) := by
  intro top left edge both
  obtain ⟨hone, -, hall⟩ := @compile_compositional String fun _ => some "view"
  have hboth : both.result = _ := rfl
  exact ⟨hboth, ((hall ["label", "image"] [top] [left]).2 _ _ _ rfl rfl hboth).2,
    (hone "label" [top] [left, .blank]).1⟩

end LayoutConstraints
